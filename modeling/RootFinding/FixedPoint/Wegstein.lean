import RootFinding.FixedPoint.Closeness
import RootFinding.System.Iteration

/-!
# Wegstein's method

A fixed point: after one plain step, each component follows the secant through its last two points.
The point that was stepped from is the answer.
-/
namespace RootFinding.Wegstein
open Iteration
variable {α : Type} [Scalar α]

/-- A search by Wegstein's method; its notes show the point. -/
abbrev Searching (α : Type) : Type := Iteration.Searching α Empty Empty (List α)

/-- The secant step from `x` with value `y`, after `x'` with value `y'`. -/
def secant (x' y' x y : α) : α := (x - x') / ((x - y) - (x' - y')) * (y - x) + x

def secants : List α → List α → List α → List α → List α
  | x' :: xs', y' :: ys', x :: xs, y :: ys => secant x' y' x y :: secants xs' ys' xs ys
  | _, _, _, _ => []

/-- The main loop, with `left` iterations to go after `done`, from the last point with its value
to the next point. -/
def iterate (tol : List (Tolerance α)) :
    (left done : Nat) → (x' y' x : List α) → Searching α
  | 0, done, _, _, x => giveUp x done (done + 1)
  | left + 1, done, x', y', x =>
    .report (.iteration (done + 1) x) <|
      measure x fun y =>
        if Tolerance.within tol y x then succeed x done (done + 2)
        else iterate tol left (done + 1) x y (secants x' y' x y)

def search (limit : Nat) (tol : List (Tolerance α)) (x : List α) : Searching α :=
  .report (.heading (some x.length)) <|
    measure x fun y =>
      if Tolerance.within tol y x then succeed x 0 1
      else iterate tol limit 0 x y y

end RootFinding.Wegstein
