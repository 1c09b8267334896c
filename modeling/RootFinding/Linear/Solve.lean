import RootFinding.Linear.Elimination

/-!
# Linear systems

The place of a matrix's zeros and its symmetry decide how a system is solved, so that no rounding is
spent on unknowns that substitution gives directly. A system of one equation divides by its only
coefficient, whatever the number of right-hand sides.
-/
namespace RootFinding.Linear
variable {α : Type} [Scalar α]

inductive Pattern where
  | diagonal
  | upper
  | lower
  /-- Zeros everywhere but on the diagonal and beside it. -/
  | tridiagonal
  | symmetric
  | general
  deriving DecidableEq, Repr

/-- Whether the entries farther than `lower` below and `upper` above the diagonal are zero. -/
def zeroOutside (lower upper : Nat) (matrix : List (List α)) : Bool :=
  matrix.zipIdx.all fun (row, i) =>
    (row.take (i - lower)).all (· == 0) && (row.drop (i + upper + 1)).all (· == 0)

/-- The columns of a matrix of `n` columns. -/
def columns (n : Nat) (matrix : List (List α)) : List (List α) :=
  (List.range n).map fun j => matrix.map (·.getD j 0)

/-- The narrowest pattern of a matrix of `n` rows. -/
def patternOf (n : Nat) (matrix : List (List α)) : Pattern :=
  if zeroOutside 0 0 matrix then .diagonal
  else if zeroOutside 0 n matrix then .upper
  else if zeroOutside n 0 matrix then .lower
  else if zeroOutside 1 1 matrix then .tridiagonal
  else if matrix == columns n matrix then .symmetric
  else .general

def diagonalOf (matrix : List (List α)) : List α := matrix.mapIdx fun i row => row.getD i 0

def divide (d b : List α) : Except Failure (List α) :=
  if d.any (· == 0) then .error .singular else .ok (Vec.div b d)

/-- Solve a system of `n` equations in the way that its pattern allows. -/
def solveBy (n : Nat) (matrix : List (List α)) (b : List α) : Pattern → Except Failure (List α)
  | .diagonal => divide (diagonalOf matrix) b
  | .upper => backward n (matrix.zip b)
  | .lower => forward n (matrix.zip b)
  | .symmetric =>
    match bySquareRoots n (matrix.zip b) with
    | some x => .ok x
    | none => eliminate n (matrix.zip b)
  | .tridiagonal | .general => eliminate n (matrix.zip b)

/-- Solve `matrix * x = b` for a square matrix of `n` rows. -/
def solve (n : Nat) (matrix : List (List α)) (b : List α) : Except Failure (List α) :=
  if !matrix.all (·.all Scalar.isFinite) || !b.all Scalar.isFinite then .error .notFinite
  else
    match matrix with
    | [[a]] => if a == 0 then .error .singular else .ok (b.map (· / a))
    | _ =>
      if b.length = n then solveBy n matrix b (patternOf n matrix) else .error .lengthMismatch

end RootFinding.Linear
