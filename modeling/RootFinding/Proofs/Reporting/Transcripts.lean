import RootFinding.Proofs.Counting.Methods
import RootFinding.Proofs.Reporting.Courses

/-!
# Transcripts

A search reports a heading, its iterations with their numbers from one on, and right before its
answer whether it converged. This is read off its tree; what a run has reported when it ends is then
proved once for all searches, whatever the functions answer.
-/
namespace RootFinding

namespace Note
variable {Detail Detail' : Type}

def closing (converged : Bool) : Note Detail := if converged then .converged else .exhausted

/-- A heading and iterations with their numbers from one on. -/
def opening (equations : Option Nat) (details : List Detail) : List (Note Detail) :=
  .heading equations :: details.mapIdx fun i detail => .iteration (i + 1) detail

variable (equations : Option Nat) (details : List Detail)

theorem opening_concat (detail : Detail) : opening equations (details ++ [detail]) =
    opening equations details ++ [.iteration (details.length + 1) detail] := by
  rw [opening, List.mapIdx_concat, opening, List.cons_append]

theorem map_opening (f : Detail → Detail') :
    (opening equations details).map (Note.map f) = opening equations (details.map f) := by
  refine congrArg (Note.heading equations :: ·) ?_
  apply List.ext_getElem
  · simp
  · simp [Note.map]

theorem map_closing (f : Detail → Detail') (converged : Bool) :
    (closing converged).map f = closing converged := by
  cases converged <;> rfl

end Note

namespace Search
variable {Point Reading Site Slope Detail Answer : Type}

/-- Whether an answer converged, and how many iterations were reported before it. -/
structure Telling (Answer : Type) where
  converged : Answer → Bool
  lines : Answer → Nat

/-- A search that has reported nothing so far, or a heading and so many iterations, and goes on in
that order up to the closing note. Of its own it fails after the heading for some causes only. -/
inductive Chronicled (equations : Option Nat) (tells : Telling Answer) (own : Failure → Prop) :
    Option Nat → Search Point Reading Site Slope Detail Answer → Prop
  | evaluate {stage x next} (h : ∀ y, Chronicled equations tells own stage (next y)) :
    Chronicled equations tells own stage (.evaluate x next)
  | slope {stage x next} (h : ∀ y, Chronicled equations tells own stage (next y)) :
    Chronicled equations tells own stage (.slope x next)
  | heading {next} (h : Chronicled equations tells own (some 0) next) :
    Chronicled equations tells own none (.report (.heading equations) next)
  | iteration {k detail next} (h : Chronicled equations tells own (some (k + 1)) next) :
    Chronicled equations tells own (some k) (.report (.iteration (k + 1) detail) next)
  | ends {k note answer} (hk : tells.lines answer = k)
    (hnote : note = .closing (tells.converged answer)) :
    Chronicled equations tells own (some k) (.report note (.done answer))
  | fail {stage cause} (h : stage = none ∨ own cause) :
    Chronicled equations tells own stage (.fail cause)

variable {equations : Option Nat} {tells : Telling Answer} {own : Failure → Prop}
  {stage : Option Nat}

theorem Chronicled.attempt {Result : Type} {result : Except Failure Result}
    {next : Result → Search Point Reading Site Slope Detail Answer}
    (hfail : ∀ cause, result = .error cause → stage = none ∨ own cause)
    (h : ∀ r, Chronicled equations tells own stage (next r)) :
    Chronicled equations tells own stage (.attempt result next) := by
  cases result with
  | ok r => exact h r
  | error cause => exact .fail (hfail cause rfl)

/-- The notes of a search that has reported nothing, or a heading and so many iterations. -/
def Reported (equations : Option Nat) : Option Nat → List (Note Detail) → Prop
  | none, notes => notes = []
  | some k, notes => ∃ details, details.length = k ∧ notes = Note.opening equations details

structure Transcribed (equations : Option Nat) (tells : Telling Answer) (own : Failure → Prop)
    (caller : Caller Point Reading Site Slope Detail)
    (trace : Trace Point Site Detail Answer) : Prop where
  ended : ∀ answer, trace.outcome = .ok answer → ∃ details : List Detail,
    details.length = tells.lines answer ∧ trace.notes.toList =
      Note.opening equations details ++ [.closing (tells.converged answer)]
  failed : ∀ cause, trace.outcome = .error cause → trace.notes.toList = [] ∨
    (∃ details : List Detail, trace.notes.toList = Note.opening equations details) ∧
      (own cause ∨ Raised caller trace.evaluations trace.slopes cause)

variable {caller : Caller Point Reading Site Slope Detail} {evals : Array Point}
  {sites : Array Site} {notes : Array (Note Detail)}
  {search : Search Point Reading Site Slope Detail Answer}

theorem Reported.failed {cause : Failure} (hnotes : Reported equations stage notes.toList)
    (h : stage = none ∨ own cause ∨ Raised caller evals sites cause) :
    Transcribed equations tells own caller
      (⟨evals, sites, notes, .error cause⟩ : Trace Point Site Detail Answer) := by
  refine ⟨nofun, fun cause' hcause => ?_⟩
  cases hcause
  cases stage with
  | none => exact .inl hnotes
  | some k =>
    obtain ⟨details, -, hdetails⟩ := hnotes
    exact .inr ⟨⟨details, hdetails⟩, h.resolve_left nofun⟩

theorem Chronicled.runFrom (h : Chronicled equations tells own stage search)
    (hshows : ∀ note, caller.shows note = .ok true)
    (hnotes : Reported equations stage notes.toList) :
    Transcribed equations tells own caller (runFrom caller evals sites notes search) := by
  induction h generalizing evals sites notes with
  | @evaluate stage x next _ ih =>
    rw [Search.runFrom]
    cases hv : caller.value evals.size x with
    | ok y => exact ih y hnotes
    | error cause => exact hnotes.failed (.inr (.inr (.value (by simp) hv)))
  | @slope stage x next _ ih =>
    rw [Search.runFrom]
    cases hv : caller.slope sites.size x with
    | ok y => exact ih y hnotes
    | error cause => exact hnotes.failed (.inr (.inr (.slope (by simp) hv)))
  | heading _ ih =>
    rw [Search.runFrom, hshows]
    refine ih ⟨[], rfl, ?_⟩
    rw [Array.toList_push, show notes.toList = [] from hnotes]
    rfl
  | @iteration k detail next _ ih =>
    rw [Search.runFrom, hshows]
    obtain ⟨details, rfl, hdetails⟩ := hnotes
    refine ih ⟨details ++ [detail], List.length_append, ?_⟩
    rw [Array.toList_push, hdetails, Note.opening_concat]
  | @ends k note answer hk hnote =>
    rw [Search.runFrom, hshows]
    obtain ⟨details, hlength, hdetails⟩ := hnotes
    refine ⟨fun answer' hanswer => ?_, fun cause hcause => ?_⟩
    · cases hanswer
      refine ⟨details, hlength.trans hk.symm, ?_⟩
      simp only [Search.runFrom, Array.toList_push, hdetails, hnote]
    · cases hcause
  | fail h => exact hnotes.failed (h.imp_right .inl)

theorem Chronicled.run (h : Chronicled equations tells own none search)
    (hshows : ∀ note, caller.shows note = .ok true) :
    Transcribed equations tells own caller (search.run caller) :=
  Chronicled.runFrom h hshows rfl

end Search
end RootFinding
