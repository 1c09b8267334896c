import RootFinding.Linear.JacobianValue
import RootFinding.System.Iteration

/-!
# The flow of Newton's correction

A zero of a system: the correction by the inverse Jacobian is followed as a flow with one classical
Runge-Kutta step of four stages for each iteration, all stages against the residual at its start.
-/
namespace RootFinding.Sand
open Iteration
variable {α : Type} [Scalar α]

/-- What the slope function of a caller answers: a Jacobian, or a value of another kind. -/
abbrev Slope (α : Type) : Type := Except String (Jacobian α)

/-- A search along the flow. Points are grids, since a correction may have more entries than the
point; notes show the residual and the point. -/
abbrev Searching (α : Type) : Type :=
  Search (Grid α) (Grid α) (Grid α) (Slope α) (Grid α × Grid α) (Ending (Grid α))

/-- Combine grids entry by entry, or fail for shapes without a common one. -/
def combine {β : Type} (f : α → α → β) (a b : Grid α) : Except Failure (Grid β) :=
  match a.zipWith? f b with
  | some c => .ok c
  | none => .error .incompatibleShapes

def isRoot (tol fx : Grid α) : Except Failure Bool := do
  let below ← combine (fun f t => decide (Scalar.abs f < t)) fx tol
  return below.entries.all id

def correction (x fx : Grid α) (next : Grid α → Searching α) : Searching α :=
  .slope x fun
    | .ok jacobian => .attempt (jacobian.solve fx) next
    | .error kind => .fail (.notJacobian kind)

def stage (c : α) (x k : Grid α) : Except Failure (Grid α) := combine (· - ·) x (k.map (c * ·))

/-- The point after a step: `x - (k₁ + 2 (k₂ + k₃) + k₄) / 6`. -/
def step (x k₁ k₂ k₃ k₄ : Grid α) : Except Failure (Grid α) := do
  let inner ← combine (· + ·) k₂ k₃
  let sum ← combine (· + ·) k₁ (inner.map (2 * ·))
  let sum ← combine (· + ·) sum k₄
  combine (· - ·) x (sum.map (· / 6))

def flow (x fx : Grid α) (next : Grid α → Searching α) : Searching α :=
  correction x fx fun k₁ =>
    .attempt (stage Scalar.half x k₁) fun x₂ => correction x₂ fx fun k₂ =>
      .attempt (stage Scalar.half x k₂) fun x₃ => correction x₃ fx fun k₃ =>
        .attempt (combine (· - ·) x k₃) fun x₄ => correction x₄ fx fun k₄ =>
          .attempt (step x k₁ k₂ k₃ k₄) next

/-- The main loop, with `left` iterations to go after `done`. -/
def iterate (tol : Grid α) : (left done : Nat) → Grid α → Searching α
  | 0, done, x => giveUp x done done
  | left + 1, done, x =>
    .evaluate x fun fx =>
      if fx.shape = x.shape then
        .report (.iteration (done + 1) (fx, x)) <|
          .attempt (isRoot tol fx) fun passed =>
            if passed then succeed x done (done + 1)
            else flow x fx (iterate tol left (done + 1))
      else .fail (.resultShape x.shape fx.shape)

def search (limit : Nat) (tol x : List α) : Searching α :=
  .report (.heading (some x.length)) (iterate (.vector tol) limit 0 (.vector x))

end RootFinding.Sand
