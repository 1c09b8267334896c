import RootFinding.Failure
import RootFinding.Vec

/-!
# Substitution and elimination

A triangular system gives its unknowns one after the other: from the top when every equation ends at
the diagonal, from the bottom when every equation starts there. A zero on the diagonal means that
there is no unique solution.

Gaussian elimination with partial pivoting: the equation of largest weight goes first, its multiples
cancel the first unknown in the others, and the unknowns follow from the bottom.

Square root elimination: a symmetric matrix with positive pivots is the product of a lower
triangular matrix and its transpose. The first step gives a column of that matrix; what remains of
the other equations is symmetric again.
-/
namespace RootFinding.Linear
variable {α : Type} [Scalar α]

/-- An equation: its coefficients and right-hand side. -/
abbrev Equation (α : Type) := List α × α

def settle (x : α) (row : Equation α) : Equation α := (row.1.tail, row.2 - row.1.headD 0 * x)

def dropUnknown (row : Equation α) : Equation α := (row.1.tail, row.2)

/-- What is left of a right-hand side without the terms of known unknowns, first term first. -/
def remainder (r : α) (coefficients xs : List α) : α :=
  (coefficients.zip xs).foldl (fun rest term => rest - term.1 * term.2) r

def remainderFromLast (r : α) (coefficients xs : List α) : α :=
  (coefficients.zip xs).foldr (fun term rest => rest - term.1 * term.2) r

def forward : Nat → List (Equation α) → Except Failure (List α)
  | 0, _ => .ok []
  | n + 1, (p :: _, r) :: rest =>
    if p == 0 then .error .singular
    else do
      let xs ← forward n (rest.map (settle (r / p)))
      return r / p :: xs
  | _, _ => .error .singular

/-- Substitution from the bottom, for equations that start at the diagonal; every unknown is taken
out of all of them as soon as it is known. -/
def backward : Nat → List (Equation α) → Except Failure (List α)
  | 0, _ => .ok []
  | n + 1, (p :: ps, r) :: rest =>
    if p == 0 then .error .singular
    else do
      let xs ← backward n (rest.map dropUnknown)
      return remainderFromLast r ps xs / p :: xs
  | _, _ => .error .singular

def weight (row : Equation α) : α := Scalar.abs (row.1.headD 0)

def heaviest : List (Equation α) → Nat
  | [] => 0
  | row :: rest =>
    (rest.zipIdx 1).foldl (fun best (next, i) =>
      if best.2 < weight next then (i, weight next) else best) (0, weight row) |>.1

/-- The equation of largest weight, and the others with the first one in its place. -/
def takePivot : List (Equation α) → Option (Equation α × List (Equation α))
  | [] => none
  | first :: rest =>
    match heaviest (first :: rest) with
    | 0 => some (first, rest)
    | i + 1 => (rest[i]?).map fun pivot => (pivot, rest.set i first)

/-- Subtract a multiple of the pivot that cancels the first coefficient, and drop that. -/
def reduce (p : α) (ps : List α) (r : α) (row : Equation α) : Equation α :=
  let m := row.1.headD 0 / p
  (Vec.sub row.1.tail (Vec.scale m ps), row.2 - m * r)

/-- Solve as many equations as there are unknowns; a pivot of zero means that there is no unique
solution. -/
def eliminate : Nat → List (Equation α) → Except Failure (List α)
  | 0, _ => .ok []
  | n + 1, rows =>
    match takePivot rows with
    | some ((p :: ps, r), others) =>
      if p == 0 then .error .singular
      else do
        let xs ← eliminate n (others.map (reduce p ps r))
        return remainder r ps xs / p :: xs
    | _ => .error .singular

/-- Subtract the multiple `m` of a column and of its share of the right-hand side from an equation
without its first unknown. -/
def deflate (column : List α) (y : α) (row : Equation α) (m : α) : Equation α :=
  (Vec.sub row.1.tail (Vec.scale m column), row.2 - m * y)

/-- Solve a symmetric system, unless a pivot is not positive or has no square root. -/
def bySquareRoots : Nat → List (Equation α) → Option (List α)
  | 0, _ => some []
  | n + 1, (p :: ps, r) :: rest =>
    if 0 < p then do
      let d ← Scalar.sqrt? p
      let column := ps.map (· / d)
      let xs ← bySquareRoots n (List.zipWith (deflate column (r / d)) rest column)
      return remainder (r / d) column xs / d :: xs
    else none
  | _, _ => none

end RootFinding.Linear
