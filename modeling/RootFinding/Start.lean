import RootFinding.Value.Numeric

/-!
# Starting points and tolerances

A start is a vector, or a single number that becomes a vector of one component and is turned back in
the answer. Tolerances stretch to the length of the start.
-/
namespace RootFinding

/-- A vector to start from, and whether it was given as a single number. -/
structure Start where
  point : List Float
  single : Bool

namespace Start

def ofValue (v : Value) : Except Failure Start := do
  let a ← v.toGrid
  let vector := a.withRank 1
  if vector.rank = 1 then return ⟨vector.entries, a.rank = 0⟩
  else throw (.startRank vector.rank)

/-- A failure to read or stretch a tolerance. Bad numerals and uneven lists count as a tolerance of
the wrong shape. -/
def toleranceFailure (shape : List Nat) : Failure → Failure
  | .notNumeral | .uneven => .toleranceShape shape
  | cause => cause

def tolerance (s : Start) (v : Value) : Except Failure (List Float) :=
  let shape := [s.point.length]
  match v.toGrid with
  | .ok a =>
    match a.broadcast? shape with
    | some t => .ok t.entries
    | none => .error (.toleranceShape shape)
  | .error cause => .error (toleranceFailure shape cause)

end Start

/-- An array in the form of the start: its only entry where that was a single number. -/
def restore (a : Grid Float) (single : Bool) : Except Failure Value :=
  if single then
    match a.entries with
    | [x] => .ok (.ofFloat x)
    | xs => .error (.notSingle xs.length)
  else .ok (.ofGrid a)

end RootFinding
