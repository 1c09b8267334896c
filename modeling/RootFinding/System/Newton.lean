import RootFinding.Linear.JacobianValue
import RootFinding.System.Iteration

/-!
# Newton's method

A zero of a system: each iteration solves the Jacobian at the point against the residual there and
takes the full step.
-/
namespace RootFinding.Newton
open Iteration
variable {α : Type} [Scalar α]

/-- A search by Newton's method. It asks for slopes at a point with its residual, and its notes show
the residual and the point. -/
abbrev Searching (α : Type) : Type :=
  Iteration.Searching α (List α × List α) (Grid α) (List α × List α)

/-- Whether every component of the residual is below its tolerance. -/
def isRoot (tol fx : List α) : Bool :=
  (List.zipWith (fun f t => decide (Scalar.abs f < t)) fx tol).all id

def correction (slope : Grid α) (fx : List α) : Except Failure (List α) :=
  let matrix := slope.withRank 2
  match Jacobian.squareSize? matrix.shape with
  | some n => Linear.solve n (Jacobian.rows n matrix) fx
  | none => .error (.notSquare matrix.shape)

/-- The main loop, with `left` iterations to go after `done`. -/
def iterate (tol : List α) : (left done : Nat) → List α → Searching α
  | 0, done, x => giveUp x done done
  | left + 1, done, x =>
    measure x fun fx =>
      .report (.iteration (done + 1) (fx, x)) <|
        if isRoot tol fx then succeed x done (done + 1)
        else
          .slope (x, fx) fun slope =>
            .attempt (correction slope fx) fun δ => iterate tol left (done + 1) (Vec.sub x δ)

def search (limit : Nat) (tol x : List α) : Searching α :=
  .report (.heading (some x.length)) (iterate tol limit 0 x)

end RootFinding.Newton
