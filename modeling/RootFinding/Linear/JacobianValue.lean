import RootFinding.Linear.Solve
import RootFinding.Value.Numeric

/-!
# Jacobians

Matrices that can be solved against a residual, by storage: dense, banded by diagonals, or supplied
by the caller. Of the banded ones only those with a single diagonal can be solved.
-/
namespace RootFinding

inductive Jacobian (α : Type) where
  | full (n : Nat) (matrix : Grid α) (square : matrix.shape = [n, n])
  | banded (lower upper : Nat) (diagonals : List (Grid α))
      (counted : diagonals.length = lower + upper + 1)
  /-- The identity. -/
  | identity
  /-- A matrix that its author gave no way to solve. -/
  | abstract

namespace Jacobian
variable {α : Type}

def squareSize? (shape : List Nat) : Option Nat :=
  match shape with
  | [m, n] => if m = n then some n else none
  | _ => none

theorem shape_of_squareSize? {shape : List Nat} {n : Nat} (h : squareSize? shape = some n) :
    shape = [n, n] := by
  unfold squareSize? at h
  split at h
  · split at h <;> simp_all
  · simp at h

/-- A dense matrix. Fewer than two axes count as a single row. -/
def ofGrid (a : Grid α) : Except Failure (Jacobian α) :=
  let matrix := a.withRank 2
  match h : squareSize? matrix.shape with
  | some n => .ok (.full n matrix (shape_of_squareSize? h))
  | none => .error (.notSquare matrix.shape)

def ofDiagonals (lower upper : Int) (diagonals : List (Except Failure (Grid α))) :
    Except Failure (Jacobian α) :=
  if lower < 0 || upper < 0 then .error (.negativeBandwidth lower upper)
  else
    let expected := lower.toNat + upper.toNat + 1
    if diagonals.length = expected then do
      let grids ← diagonals.mapM id
      let grids := grids.map (Grid.withRank 1)
      if counted : grids.length = lower.toNat + upper.toNat + 1 then
        return .banded lower.toNat upper.toNat grids counted
      else throw (.diagonalCount expected grids.length)
    else .error (.diagonalCount expected diagonals.length)

def rows (n : Nat) (matrix : Grid α) : List (List α) := Grid.pieces n n matrix.entries

def solve [Scalar α] (jacobian : Jacobian α) (b : Grid α) : Except Failure (Grid α) :=
  match jacobian with
  | .full n matrix _ =>
    if b.shape = [n] then do
      let x ← Linear.solve n (rows n matrix) b.entries
      return .vector x
    else .error (.rightHandSide n b.shape)
  | .banded lower upper diagonals _ =>
    if lower = 0 ∧ upper = 0 then
      match diagonals.head? with
      | some d =>
        match b.zipWith? (· / ·) d with
        | some x => .ok x
        | none => .error .incompatibleShapes
      | none => .error .incompatibleShapes
    else if lower < 2 ∧ upper < 2 then .error (.tridiagonal lower upper)
    else .error (.banded lower upper)
  | .identity => .ok b
  | .abstract => .error .abstractSolve

def ofValues (lower upper diagonals : Value) : Except Failure (Jacobian Float) := do
  let lower ← lower.toInt
  let upper ← upper.toInt
  if lower < 0 || upper < 0 then throw (.negativeBandwidth lower upper)
  match diagonals.items? with
  | some items => Jacobian.ofDiagonals lower upper (items.map Value.toGrid)
  | none => throw .wrongKind

def text : Jacobian Float → String
  | .full _ matrix _ => "FullJacobian(" ++ (Value.ofGrid matrix).nestedText ++ ")"
  | .banded lower upper diagonals _ =>
    s!"BandedJacobian(ml={lower}, mu={upper}, diags=" ++
      (Value.list (diagonals.map Value.ofGrid)).nestedText ++ ")"
  | .identity => "Identity()"
  | .abstract => "Abstract()"

/-- Solve against a value. The identity gives it back as it is. -/
def solveValue (jacobian : Jacobian Float) (b : Value) : Except Failure Value :=
  match jacobian with
  | .identity => .ok b
  | .abstract => .error .abstractSolve
  | jacobian => do return .ofGrid (← jacobian.solve (← b.toGrid))

end Jacobian
end RootFinding
