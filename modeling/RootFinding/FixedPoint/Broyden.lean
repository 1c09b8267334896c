import RootFinding.FixedPoint.Closeness
import RootFinding.System.Iteration

/-!
# Broyden's method

A fixed point of `f`, which is a zero of `x - f x`: an estimate of the inverse Jacobian starts from
the secant slopes of two plain steps and takes a change of rank one for each evaluation, so that it
maps the last change of the residual to the last change of the point. Successive points are tested.
-/
namespace RootFinding.Broyden
open Iteration
variable {α : Type} [Scalar α]

/-- A search by Broyden's method; its notes show the point. -/
abbrev Searching (α : Type) : Type := Iteration.Searching α Empty Empty (List α)

/-- The last evaluated point with its value, and the estimate of the inverse Jacobian. -/
structure Estimate (α : Type) where
  point : List α
  value : List α
  inverse : List (List α)

/-- The slopes of three points in a row of plain steps, in each component. -/
def slopes (x y z : List α) : List α :=
  Vec.div (Vec.sub y x) (Vec.sub (Vec.sub (y.map (2 * ·)) x) z)

/-- The estimate after two plain steps `y` and `z` from `x`. -/
def Estimate.ofSteps (x y z : List α) : Estimate α := ⟨y, z, Vec.diagonal (slopes x y z)⟩

def Estimate.propose (s : Estimate α) : List α :=
  Vec.add (Vec.apply s.inverse (Vec.sub s.value s.point)) s.point

/-- The change of rank one by which `h` maps `dg` to `dx`. -/
def update (h : List (List α)) (dx dg : List α) : List (List α) :=
  let norm := Vec.dot dg dg
  Vec.addMatrix h ((Vec.outer (Vec.sub dx (Vec.apply h dg)) dg).map (·.map (· / norm)))

/-- The change of the residual `x - f x` from the last point to a new one. -/
def residualChange (s : Estimate α) (x y : List α) : List α :=
  Vec.sub (Vec.sub x y) (Vec.sub s.point s.value)

def Estimate.observe (s : Estimate α) (x y : List α) : Estimate α :=
  ⟨x, y, update s.inverse (Vec.sub x s.point) (residualChange s x y)⟩

/-- The main loop, with `left` iterations to go after `done`, from the next point on. -/
def iterate (tol : List (Tolerance α)) :
    (left done : Nat) → Estimate α → List α → Searching α
  | 0, done, _, x => giveUp x done (done + 1)
  | left + 1, done, s, x =>
    measure x fun y =>
      let s := s.observe x y
      let next := s.propose
      .report (.iteration (done + 1) next) <|
        if Tolerance.within tol next x then succeed next (done + 1) (done + 2)
        else iterate tol left (done + 1) s next

/-- Search for a fixed point from a starting point. The two plain steps count as the first
iteration. -/
def search (limit : Nat) (tol : List (Tolerance α)) (x : List α) : Searching α :=
  .report (.heading (some x.length)) <|
    measure x fun y =>
      if Tolerance.within tol y x then succeed x 0 1
      else
        measure y fun z =>
          if Tolerance.within tol z y then succeed y 0 2
          else
            let s := Estimate.ofSteps x y z
            .report (.iteration 1 s.propose) (iterate tol (limit - 1) 1 s s.propose)

end RootFinding.Broyden
