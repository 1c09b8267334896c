import RootFinding.Proofs.Runs
import RootFinding.Session.Run

/-!
# Courses

What a solver does and what is shown of it are two things. The course of a run keeps its calls, all
that it reports and how it ends; a run is a course as it is seen at a display level.
-/
namespace RootFinding

namespace Note
variable {Detail Detail' : Type}

def map (f : Detail → Detail') : Note Detail → Note Detail'
  | .heading equations => .heading equations
  | .iteration number detail => .iteration number (f detail)
  | .converged => .converged
  | .exhausted => .exhausted

def isIteration : Note Detail → Bool
  | .iteration _ _ => true
  | _ => false

@[simp] theorem level_map (f : Detail → Detail') (note : Note Detail) :
    (note.map f).level = note.level := by
  cases note <;> rfl

theorem level_eq (note : Note Detail) : note.level = if note.isIteration then 2 else 1 := by
  cases note <;> rfl

/-- The notes that stand at or below a display level. -/
def upTo (level : Int) (notes : List (Note Detail)) : List (Note Detail) :=
  notes.filter fun note => (note.level : Int) ≤ level

variable {level : Int} (notes : List (Note Detail))

theorem upTo_of_nonpos (h : level ≤ 0) : upTo level notes = [] := by
  rw [upTo, List.filter_eq_nil_iff]
  intro note _
  rw [decide_eq_true_eq, level_eq]
  split <;> omega

theorem upTo_one : upTo 1 notes = notes.filter fun note => !note.isIteration := by
  refine List.filter_congr fun note _ => ?_
  rw [level_eq]
  cases note.isIteration <;> rfl

theorem upTo_of_two_le (h : 2 ≤ level) : upTo level notes = notes := by
  rw [upTo, List.filter_eq_self]
  intro note _
  rw [decide_eq_true_eq, level_eq]
  split <;> omega

end Note

namespace Progress
variable {Detail : Type}

theorem line_map (method : String) (detail : Detail → String) (note : Note Detail) :
    line method id (note.map detail) = line method detail note := by
  cases note with
  | heading equations => cases equations <;> rfl
  | _ => rfl

/-- At an integer level, it can be told of each note whether it is shown. -/
theorem shows_int (level : Int) (note : Note Detail) :
    shows (.int level) note = .ok (decide ((note.level : Int) ≤ level)) := by
  have hcompare : (some (compare (note.level : Int) level) == some .lt ||
      some (compare (note.level : Int) level) == some .eq) =
        decide ((note.level : Int) ≤ level) := by
    rw [Bool.eq_iff_iff]
    simp only [Bool.or_eq_true, beq_iff_eq, Option.some.injEq, Int.compare_eq_lt,
      Std.compare_eq_iff_eq, decide_eq_true_eq]
    omega
  exact congrArg Except.ok hcompare

def text (method : String) (notes : List (Note String)) : String :=
  String.join (notes.map (line method id))

end Progress

namespace Search
variable {Point Reading Site Slope Detail Answer : Type}
  {shown : Note Detail → Bool}

/-- A run that shows fewer notes is the run that shows them all, with the others left out. -/
theorem runFrom_filter (caller : Caller Point Reading Site Slope Detail)
    (hs : ∀ note, caller.shows note = .ok (shown note))
    (search : Search Point Reading Site Slope Detail Answer) (evals : Array Point)
    (slopes : Array Site) (notes : Array (Note Detail)) :
    runFrom caller evals slopes (notes.filter shown) search =
      { runFrom { caller with shows := fun _ => .ok true } evals slopes notes search with
        notes := (runFrom { caller with shows := fun _ => .ok true } evals slopes notes
          search).notes.filter shown } := by
  induction search generalizing evals slopes notes with
  | evaluate x next ih =>
    rw [runFrom, runFrom]
    dsimp only
    cases caller.value evals.size x with
    | ok y => exact ih y ..
    | error cause => rfl
  | slope x next ih =>
    rw [runFrom, runFrom]
    dsimp only
    cases caller.slope slopes.size x with
    | ok y => exact ih y ..
    | error cause => rfl
  | report note next ih =>
    rw [runFrom_report hs, runFrom, ← ih evals slopes (notes.push note), Array.filter_push]
  | fail cause => rfl
  | done answer => rfl

end Search

/-- The calls of a run, all that it reports, and how it ends. -/
structure Course (Answer : Type) where
  evaluations : Array Value := #[]
  slopes : Array Value := #[]
  notes : List (Note String) := []
  outcome : Except Failure Answer

namespace Course
variable {Point Reading Site Slope Detail Answer Answer' : Type}

def failed (cause : Failure) : Course Answer := { outcome := .error cause }

/-- The course of a search: its questions as values, and all its notes with their details as
text. -/
def ofSearch (detail : Detail → String) (point : Point → Value) (place : Site → Value)
    (caller : Caller Point Reading Site Slope Detail)
    (search : Search Point Reading Site Slope Detail Answer) : Course Answer :=
  let trace := search.run { caller with shows := fun _ => .ok true }
  { evaluations := trace.evaluations.map point
    slopes := trace.slopes.map place
    notes := trace.notes.toList.map (Note.map detail)
    outcome := trace.outcome }

def map (f : Answer → Answer') (c : Course Answer) : Course Answer' :=
  { c with outcome := c.outcome.map f }

/-- A course as it is seen at a display level, its end settled. -/
def seen (c : Course Answer) (method : String) (level : Int)
    (settle : Answer → Except Failure Solution) : Run where
  outcome := c.outcome.bind settle
  printed := Progress.text method (Note.upTo level c.notes)
  evaluations := c.evaluations
  slopes := c.slopes

variable (method : String) (level : Int)

theorem seen_map (c : Course Answer) (f : Answer → Answer')
    (settle : Answer' → Except Failure Solution) :
    (c.map f).seen method level settle = c.seen method level fun answer => settle (f answer) := by
  cases h : c.outcome <;> simp [map, seen, h, Except.map, Except.bind]

/-- The run of a search is its course as it is seen at the level of its caller. -/
theorem seen_ofSearch {caller : Caller Point Reading Site Slope Detail} (detail : Detail → String)
    (point : Point → Value) (place : Site → Value) (settle : Answer → Except Failure Solution)
    (search : Search Point Reading Site Slope Detail Answer) :
    (ofSearch detail point place caller search).seen method level settle =
      .ofTrace (Progress.line method detail) point place settle
        (search.run { caller with shows := Progress.shows (.int level) }) := by
  have hrun := Search.runFrom_filter { caller with shows := Progress.shows (.int level) }
    (Progress.shows_int level) search #[] #[] #[]
  rw [Array.filter_empty] at hrun
  rw [Search.run, hrun]
  simp [Run.ofTrace, seen, ofSearch, Search.run, Progress.text, Note.upTo, List.filter_map,
    Function.comp_def, Progress.line_map]

end Course
end RootFinding
