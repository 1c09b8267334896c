import RootFinding.Proofs.Counting.Unreported
import RootFinding.Solver

/-!
# Counts of calls

A search ends with counts of its iterations and calls. That these agree with the calls on the way is
read off its tree, with the number of calls that no end exceeds; what then holds of its runs is
proved once for all searches, whatever the functions answer.
-/
namespace RootFinding

namespace Search
variable {Point Reading Site Slope Detail Answer : Type}

/-- A search which, after so many calls and slopes, makes no more than `most` calls in all and whose
ends agree with the numbers of calls and slopes before them. It does not fail with a report. -/
inductive Counted (most : Nat) (agrees : Nat → Nat → Answer → Prop) :
    Nat → Nat → Search Point Reading Site Slope Detail Answer → Prop
  | evaluate {calls slopes x next} (hl : calls < most)
    (h : ∀ y, Counted most agrees (calls + 1) slopes (next y)) :
    Counted most agrees calls slopes (.evaluate x next)
  | slope {calls slopes x next} (h : ∀ y, Counted most agrees calls (slopes + 1) (next y)) :
    Counted most agrees calls slopes (.slope x next)
  | report {calls slopes note next} (h : Counted most agrees calls slopes next) :
    Counted most agrees calls slopes (.report note next)
  | fail {calls slopes cause} (h : ∀ r, cause ≠ .notConverged r) :
    Counted most agrees calls slopes (.fail cause)
  | done {calls slopes answer} (h : agrees calls slopes answer) :
    Counted most agrees calls slopes (.done answer)

/-- A failure of the caller's at one of these calls, or over a note. -/
inductive Raised (caller : Caller Point Reading Site Slope Detail) (evaluations : Array Point)
    (slopes : Array Site) (cause : Failure) : Prop
  | value {i x} (hx : evaluations[i]? = some x) (h : caller.value i x = .error cause)
  | slope {i x} (hx : slopes[i]? = some x) (h : caller.slope i x = .error cause)
  | note {note} (h : caller.shows note = .error cause)

variable {most : Nat} {agrees : Nat → Nat → Answer → Prop} {calls slopes : Nat}

theorem Counted.attempt {Result : Type} {result : Except Failure Result}
    {next : Result → Search Point Reading Site Slope Detail Answer} (hr : Unreported result)
    (h : ∀ r, Counted most agrees calls slopes (next r)) :
    Counted most agrees calls slopes (.attempt result next) := by
  cases result with
  | ok r => exact h r
  | error cause => exact .fail hr.cause_ne

/-- What the counts say of a trace. -/
structure Tallied (most : Nat) (agrees : Nat → Nat → Answer → Prop)
    (caller : Caller Point Reading Site Slope Detail) (trace : Trace Point Site Detail Answer) :
    Prop where
  size_le : trace.evaluations.size ≤ most
  agrees : ∀ answer, trace.outcome = .ok answer →
    agrees trace.evaluations.size trace.slopes.size answer
  raised : ∀ r, trace.outcome = .error (.notConverged r) →
    Raised caller trace.evaluations trace.slopes (.notConverged r)

variable {caller : Caller Point Reading Site Slope Detail} {evals : Array Point}
  {sites : Array Site} {notes : Array (Note Detail)}
  {search : Search Point Reading Site Slope Detail Answer}

theorem Counted.runFrom (h : Counted most agrees evals.size sites.size search)
    (hl : evals.size ≤ most) :
    Tallied most agrees caller (runFrom caller evals sites notes search) := by
  induction search generalizing evals sites notes with
  | evaluate x next ih =>
    obtain ⟨hlt, hnext⟩ := h
    rw [Search.runFrom]
    cases hv : caller.value evals.size x with
    | ok y =>
      refine ih y ?_ ?_
      · rw [Array.size_push]
        exact hnext y
      · rw [Array.size_push]
        exact hlt
    | error cause =>
      refine ⟨by simpa using hlt, by simp, fun r hr => ?_⟩
      cases hr
      exact .value (by simp) hv
  | slope x next ih =>
    obtain _ | hnext := h
    rw [Search.runFrom]
    cases hv : caller.slope sites.size x with
    | ok y =>
      refine ih y ?_ hl
      rw [Array.size_push]
      exact hnext y
    | error cause =>
      refine ⟨hl, by simp, fun r hr => ?_⟩
      cases hr
      exact .slope (by simp) hv
  | report note next ih =>
    obtain _ | _ | hnext := h
    rw [Search.runFrom]
    cases hs : caller.shows note with
    | ok shown => cases shown <;> exact ih hnext hl
    | error cause =>
      refine ⟨hl, by simp, fun r hr => ?_⟩
      cases hr
      exact .note hs
  | fail cause =>
    obtain _ | _ | _ | hcause := h
    refine ⟨hl, by simp [Search.runFrom], fun r hr => ?_⟩
    cases hr
    exact absurd rfl (hcause r)
  | done answer =>
    obtain _ | _ | _ | _ | hanswer := h
    refine ⟨hl, fun answer' ho => ?_, by simp [Search.runFrom]⟩
    cases ho
    exact hanswer

theorem Counted.run (h : Counted most agrees 0 0 search) :
    Tallied most agrees caller (search.run caller) :=
  Counted.runFrom h (Nat.zero_le most)

end Search
end RootFinding
