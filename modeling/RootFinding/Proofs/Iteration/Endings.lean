import RootFinding.Proofs.FixedPoint.Stages

/-!
# The shape of the last point

A property of each end of a search is one of the answers of its runs. Where the methods for systems
measure their values they end at a point of the length of the start, converged or not: the point of
an exhausted search was not called any more, so that its length is read off the step that led to it.
-/
namespace RootFinding

namespace Search
variable {Point Reading Site Slope Detail Answer : Type}

/-- A search of which each end has a property, as long as the slopes that it is given are
allowed. -/
inductive Ends (ends : Answer → Prop) (allowed : Site → Slope → Prop) :
    Search Point Reading Site Slope Detail Answer → Prop
  | evaluate {x next} (h : ∀ y, Ends ends allowed (next y)) : Ends ends allowed (.evaluate x next)
  | slope {x next} (h : ∀ y, allowed x y → Ends ends allowed (next y)) :
    Ends ends allowed (.slope x next)
  | report {note next} (h : Ends ends allowed next) : Ends ends allowed (.report note next)
  | fail {cause} : Ends ends allowed (.fail cause)
  | done {answer} (h : ends answer) : Ends ends allowed (.done answer)

variable {ends : Answer → Prop} {allowed : Site → Slope → Prop}
  {caller : Caller Point Reading Site Slope Detail} {evals : Array Point} {slopes : Array Site}
  {notes : Array (Note Detail)} {search : Search Point Reading Site Slope Detail Answer}
  {answer : Answer}

/-- The answer of a run has the property of the ends of its search. -/
theorem Ends.of_runFrom (h : Ends ends allowed search)
    (hslope : ∀ k x y, (runFrom caller evals slopes notes search).slopes[k]? = some x →
      caller.slope k x = .ok y → allowed x y)
    (ho : (runFrom caller evals slopes notes search).outcome = .ok answer) : ends answer := by
  induction h generalizing evals slopes notes with
  | @evaluate x next _ ih =>
    rw [runFrom] at hslope ho
    cases hv : caller.value evals.size x with
    | ok y =>
      rw [hv] at hslope ho
      exact ih y hslope ho
    | error cause =>
      rw [hv] at ho
      cases ho
  | @slope x next _ ih =>
    have hx : (runFrom caller evals slopes notes (.slope x next)).slopes[slopes.size]? = some x :=
      getElem?_slope x next
    cases hs : caller.slope slopes.size x with
    | ok y =>
      have hy := hslope slopes.size x y hx hs
      rw [runFrom, hs] at hslope ho
      exact ih y hy hslope ho
    | error cause =>
      rw [runFrom, hs] at ho
      cases ho
  | @report note next _ ih =>
    rw [runFrom] at hslope ho
    cases hs : caller.shows note with
    | ok shown =>
      rw [hs] at hslope ho
      cases shown <;> exact ih hslope ho
    | error cause =>
      rw [hs] at ho
      cases ho
  | fail => cases ho
  | done h =>
    cases ho
    exact h

end Search

namespace Iteration
open Search
variable {α Site Slope Detail : Type} {allowed : Site → Slope → Prop}

/-- An ending at a vector of `n` components. -/
def AtLength (n : Nat) (e : Ending (List α)) : Prop := e.point.length = n

theorem ends_measure {ends : Ending (List α) → Prop} {x : List α}
    {next : List α → Searching α Site Slope Detail}
    (h : ∀ y : List α, y.length = x.length → Ends ends allowed (next y)) :
    Ends ends allowed (measure x next) := by
  refine .evaluate fun y => ?_
  split
  · rename_i hy
    exact h _ (Grid.length_of_shape hy)
  · exact .fail

/-- A run whose values are measured ends at a vector of the same length. -/
theorem Measured.ends {n : Nat} {sites : Site → Prop} {search : Searching α Site Slope Detail}
    (h : Measured n sites search) : Ends (AtLength n) (fun _ _ => True) search := by
  induction h with
  | measure hlen _ ih => exact ends_measure fun y hy => ih y (hy.trans hlen)
  | slope _ _ ih => exact .slope fun y _ => ih y
  | report _ ih => exact .report ih
  | fail => exact .fail
  | done he => exact .done he

end Iteration

open Search Iteration
variable {α : Type} [Scalar α] {n : Nat}

namespace Broyden

theorem Estimate.sized_ofSteps {x y z : List α} (hx : x.length = n) (hy : y.length = n)
    (hz : z.length = n) : (Estimate.ofSteps x y z).Sized n := by
  refine ⟨hy, hz, ?_⟩
  simp [Estimate.ofSteps, slopes, hx, hy, hz]

theorem measured_iterate (tol : List (Tolerance α)) (left done : Nat) {s : Estimate α}
    (hs : s.Sized n) : Measured n Empty.elim (iterate tol left done s s.propose) := by
  induction left generalizing done s with
  | zero => exact .report (.done hs.length_propose)
  | succ left ih =>
    refine .measure hs.length_propose fun y hy => .report ?_
    have hnext := hs.observe hy
    split
    · exact .report (.done hnext.length_propose)
    · exact ih (done + 1) hnext

theorem measured_search (limit : Nat) (tol : List (Tolerance α)) {x : List α}
    (hx : x.length = n) : Measured n Empty.elim (search limit tol x) := by
  refine .report (.measure hx fun y hy => ?_)
  split
  · exact .report (.done hx)
  · refine .measure hy fun z hz => ?_
    split
    · exact .report (.done hy)
    · exact .report (measured_iterate _ _ _ (Estimate.sized_ofSteps hx hy hz))

end Broyden

theorem Sand.ends_iterate (tol : Grid α) (left done : Nat) {x : Grid α}
    (hx : x.shape = [n]) :
    Ends (fun e : Ending (Grid α) => e.point.shape = [n]) (Keeping n)
      (iterate tol left done x) := by
  induction left generalizing done x with
  | zero => exact .report (.done hx)
  | succ left ih =>
    refine .evaluate fun fx => ?_
    split
    · rename_i hfx
      refine .report (attempt_of (fun _ => .fail) fun passed _ => ?_)
      split
      · exact .report (.done hx)
      · refine flow_of (fun _ => .fail) ?_ hx (hfx.trans hx) fun y hy => ih (done + 1) hy
        exact fun z next hz h => .slope fun slope hslope => h slope (hslope hz)
    · exact .fail

end RootFinding
