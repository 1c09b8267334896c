import RootFinding.FixedPoint.Closeness
import RootFinding.System.Iteration

/-!
# Steffensen's method

A fixed point: two plain steps are extrapolated in each component with Aitken's process. Both plain
steps are tested, and the point that was stepped from is the answer.
-/
namespace RootFinding.Steffensen
open Iteration
variable {α : Type} [Scalar α]

/-- A search by Steffensen's method; its notes show the point. -/
abbrev Searching (α : Type) : Type := Iteration.Searching α Empty Empty (List α)

/-- The extrapolated number of `x` and two plain steps from it. -/
def aitken (x y z : α) : α := x - (y - x) * (y - x) / (z - 2 * y + x)

def extrapolate : List α → List α → List α → List α
  | x :: xs, y :: ys, z :: zs => aitken x y z :: extrapolate xs ys zs
  | _, _, _ => []

/-- The main loop, with `left` iterations to go after `done`. -/
def iterate (tol : List (Tolerance α)) : (left done : Nat) → List α → Searching α
  | 0, done, x => giveUp x done (2 * done)
  | left + 1, done, x =>
    .report (.iteration (done + 1) x) <|
      measure x fun y =>
        if Tolerance.within tol y x then succeed x done (2 * done + 1)
        else
          measure y fun z =>
            if Tolerance.within tol z y then succeed y done (2 * done + 2)
            else iterate tol left (done + 1) (extrapolate x y z)

def search (limit : Nat) (tol : List (Tolerance α)) (x : List α) : Searching α :=
  .report (.heading (some x.length)) (iterate tol limit 0 x)

end RootFinding.Steffensen
