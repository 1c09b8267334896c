import RootFinding.Failure

/-!
# Searches

A root finder is a tree: it asks for the value or the slope of a function at a point, reports its
progress, and ends with an answer or a failure. What the caller's functions do is left open, so the
same tree stands for every run; `Search.run` supplies the functions and keeps what can be seen.
-/
namespace RootFinding

inductive Note (Detail : Type) where
  /-- The beginning, with the number of equations where there are several unknowns. -/
  | heading (equations : Option Nat)
  | iteration (number : Nat) (detail : Detail)
  | converged
  | exhausted

/-- The level of a note: headings and endings stand at the first, iterations at the second. -/
def Note.level {Detail : Type} : Note Detail → Nat
  | .iteration _ _ => 2
  | _ => 1

/-- A search before its questions are answered. -/
inductive Search (Point Reading Site Slope Detail Answer : Type) where
  | evaluate (x : Point) (next : Reading → Search Point Reading Site Slope Detail Answer)
  | slope (x : Site) (next : Slope → Search Point Reading Site Slope Detail Answer)
  | report (note : Note Detail) (next : Search Point Reading Site Slope Detail Answer)
  | fail (cause : Failure)
  | done (answer : Answer)

/-- What can be seen of a run: the questions asked, the notes shown and the end. -/
structure Trace (Point Site Detail Answer : Type) where
  evaluations : Array Point := #[]
  slopes : Array Site := #[]
  notes : Array (Note Detail) := #[]
  outcome : Except Failure Answer

/-- The caller's side of a run: functions that may answer differently on each call, and which notes
are shown. -/
structure Caller (Point Reading Site Slope Detail : Type) where
  value : Nat → Point → Except Failure Reading
  slope : Nat → Site → Except Failure Slope
  shows : Note Detail → Except Failure Bool

namespace Search
variable {Point Reading Site Slope Detail Answer Result : Type}

def runFrom (caller : Caller Point Reading Site Slope Detail) (evaluations : Array Point)
    (slopes : Array Site) (notes : Array (Note Detail)) :
    Search Point Reading Site Slope Detail Answer → Trace Point Site Detail Answer
  | .evaluate x next =>
    match caller.value evaluations.size x with
    | .ok y => runFrom caller (evaluations.push x) slopes notes (next y)
    | .error cause => ⟨evaluations.push x, slopes, notes, .error cause⟩
  | .slope x next =>
    match caller.slope slopes.size x with
    | .ok y => runFrom caller evaluations (slopes.push x) notes (next y)
    | .error cause => ⟨evaluations, slopes.push x, notes, .error cause⟩
  | .report note next =>
    match caller.shows note with
    | .ok true => runFrom caller evaluations slopes (notes.push note) next
    | .ok false => runFrom caller evaluations slopes notes next
    | .error cause => ⟨evaluations, slopes, notes, .error cause⟩
  | .fail cause => ⟨evaluations, slopes, notes, .error cause⟩
  | .done answer => ⟨evaluations, slopes, notes, .ok answer⟩

def run (caller : Caller Point Reading Site Slope Detail)
    (search : Search Point Reading Site Slope Detail Answer) :
    Trace Point Site Detail Answer :=
  runFrom caller #[] #[] #[] search

def attempt (result : Except Failure Result)
    (next : Result → Search Point Reading Site Slope Detail Answer) :
    Search Point Reading Site Slope Detail Answer :=
  match result with
  | .ok r => next r
  | .error cause => .fail cause

@[simp] theorem attempt_ok (r : Result)
    (next : Result → Search Point Reading Site Slope Detail Answer) :
    attempt (.ok r) next = next r := rfl

@[simp] theorem attempt_error (cause : Failure)
    (next : Result → Search Point Reading Site Slope Detail Answer) :
    attempt (.error cause) next = .fail cause := rfl

end Search
end RootFinding
