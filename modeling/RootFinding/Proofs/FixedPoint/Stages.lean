import RootFinding.FixedPoint.Broyden
import RootFinding.Proofs.Iteration.Shape

/-!
# Stages of Broyden's method

A search by Broyden's method takes two plain steps, each of which may end it, and then calls its
function at one proposal after another. The stages that it comes to are described without the tree
of questions, and each run of the tree that does not fail ends at one of them.
-/
namespace RootFinding

namespace Iteration
open Search
variable {α Site Slope Detail : Type}

/-- What a caller answers to a call at a vector. An answer of another shape fails. -/
def reply (caller : Caller (List α) (Grid α) Site Slope Detail) (number : Nat) (x : List α) :
    Except Failure (List α) :=
  match caller.value number x with
  | .ok y =>
    if y.shape = [x.length] then .ok y.entries else .error (.resultShape [x.length] y.shape)
  | .error cause => .error cause

variable {caller : Caller (List α) (Grid α) Site Slope Detail} {evals : Array (List α)}
  {slopes : Array Site} {notes : Array (Note Detail)}

theorem length_of_reply {number : Nat} {x y : List α} (h : reply caller number x = .ok y) :
    y.length = x.length := by
  unfold reply at h
  split at h
  · split at h
    · rename_i hshape
      cases h
      exact Grid.length_of_shape hshape
    · cases h
  · cases h

theorem runFrom_measure_ok {x y : List α} (h : reply caller evals.size x = .ok y)
    (next : List α → Searching α Site Slope Detail) :
    runFrom caller evals slopes notes (measure x next) =
      runFrom caller (evals.push x) slopes notes (next y) := by
  unfold reply at h
  rw [measure, runFrom]
  split at h
  · rename_i y' hy
    split at h
    · rename_i hshape
      cases h
      rw [hy]
      simp only [hshape, if_true]
    · cases h
  · cases h

theorem runFrom_measure_error {x : List α} {cause : Failure}
    (h : reply caller evals.size x = .error cause)
    (next : List α → Searching α Site Slope Detail) :
    runFrom caller evals slopes notes (measure x next) =
      ⟨evals.push x, slopes, notes, .error cause⟩ := by
  unfold reply at h
  rw [measure, runFrom]
  split at h
  · rename_i y' hy
    split at h
    · cases h
    · rename_i hshape
      cases h
      rw [hy]
      simp only [hshape, if_false]
      rfl
  · rename_i cause' hy
    cases h
    rw [hy]

section Endings
variable {shown : Note Detail → Bool} (hs : ∀ note, caller.shows note = .ok (shown note))
  (evals : Array (List α)) (p : List α) (rounds count : Nat) (slopes : Array Site)
  (notes : Array (Note Detail))

include hs in
theorem runFrom_succeed :
    (runFrom caller evals slopes notes (succeed p rounds count)).evaluations = evals ∧
      (runFrom caller evals slopes notes (succeed p rounds count)).outcome =
        .ok ⟨p, true, rounds, count⟩ := by
  rw [succeed, runFrom_report hs]
  exact ⟨rfl, rfl⟩

include hs in
theorem evaluations_giveUp :
    (runFrom caller evals slopes notes (giveUp p rounds count)).evaluations = evals := by
  rw [giveUp, runFrom_report hs]
  rfl

end Endings

end Iteration

namespace Broyden
open Iteration Search
variable {α : Type} [Scalar α]

/-- The stages of a search from a start with the calls made so far: after two plain steps that do
not pass the test, and then after each call at a proposal. A proposal is called where it is the
first one or the test of its step did not end the search. -/
inductive Reached (answer : Nat → List α → Except Failure (List α)) (tol : List (Tolerance α))
    (x : List α) : List (List α) → Estimate α → Prop
  | steps {y z} (hy : answer 0 x = .ok y) (hyx : Tolerance.within tol y x = false)
    (hz : answer 1 y = .ok z) (hzy : Tolerance.within tol z y = false) :
    Reached answer tol x [x, y] (.ofSteps x y z)
  | pass {calls s y} (hr : Reached answer tol x calls s)
    (ht : calls.length = 2 ∨ Tolerance.within tol s.propose s.point = false)
    (hy : answer calls.length s.propose = .ok y) :
    Reached answer tol x (calls ++ [s.propose]) (s.observe s.propose y)

section Stages
variable {answer : Nat → List α → Except Failure (List α)} {tol : List (Tolerance α)}
  {x : List α} {calls : List (List α)} {s : Estimate α}

theorem Reached.two_le_length (h : Reached answer tol x calls s) : 2 ≤ calls.length := by
  induction h with
  | steps => exact Nat.le_refl 2
  | pass _ _ _ ih =>
    rw [List.length_append]
    omega

theorem Reached.getLast? (h : Reached answer tol x calls s) : calls.getLast? = some s.point := by
  cases h with
  | steps => rfl
  | pass => exact List.getLast?_concat

theorem Reached.answer_eq (h : Reached answer tol x calls s) :
    answer (calls.length - 1) s.point = .ok s.value := by
  cases h with
  | steps hy hyx hz hzy => exact hz
  | pass hr ht hy =>
    rw [List.length_append]
    exact hy

theorem Reached.exists_take (h : Reached answer tol x calls s) {k : Nat} (hk : 2 ≤ k)
    (hle : k ≤ calls.length) : ∃ s', Reached answer tol x (calls.take k) s' := by
  induction h with
  | steps hy hyx hz hzy =>
    obtain rfl : k = 2 := Nat.le_antisymm hle hk
    exact ⟨_, .steps hy hyx hz hzy⟩
  | @pass calls s y hr ht hy ih =>
    rw [List.length_append, List.length_singleton] at hle
    rcases Nat.lt_or_ge calls.length k with hlt | hge
    · obtain rfl : k = calls.length + 1 := by omega
      rw [List.take_of_length_le (by simp)]
      exact ⟨_, hr.pass ht hy⟩
    · rw [List.take_append_of_le_length hge]
      exact ih hge

/-- An estimate of `n` components. -/
structure Estimate.Sized (s : Estimate α) (n : Nat) : Prop where
  point : s.point.length = n
  value : s.value.length = n
  inverse : s.inverse.length = n

theorem Estimate.Sized.length_propose {n : Nat} (h : s.Sized n) : s.propose.length = n := by
  simp [Estimate.propose, h.point, h.inverse]

theorem Estimate.Sized.observe {n : Nat} (h : s.Sized n) {y : List α} (hy : y.length = n) :
    (s.observe s.propose y).Sized n := by
  refine ⟨h.length_propose, hy, ?_⟩
  simp [Estimate.observe, update, Vec.addMatrix, Vec.outer, h.inverse, h.length_propose, h.point]

theorem Reached.sized (hanswer : ∀ {i z y}, answer i z = .ok y → y.length = z.length)
    (h : Reached answer tol x calls s) : s.Sized x.length := by
  induction h with
  | steps hy hyx hz hzy =>
    have hy := hanswer hy
    have hz := hanswer hz
    refine ⟨hy, hz.trans hy, ?_⟩
    simp [Estimate.ofSteps, slopes, hy, hz]
  | pass _ _ hy ih => exact ih.observe ((hanswer hy).trans ih.length_propose)

end Stages

/-- What a search with a limit divides by: in each component the second difference of its plain
steps, and for each later call the square of the change of the residual. -/
inductive Divides (answer : Nat → List α → Except Failure (List α)) (tol : List (Tolerance α))
    (x : List α) (limit : Nat) : α → Prop
  | steps {y z d} (hy : answer 0 x = .ok y) (hyx : Tolerance.within tol y x = false)
    (hz : answer 1 y = .ok z) (hzy : Tolerance.within tol z y = false)
    (hd : d ∈ Vec.sub (Vec.sub (y.map (2 * ·)) x) z) : Divides answer tol x limit d
  | pass {calls s y} (hr : Reached answer tol x calls s) (hl : calls.length ≤ limit)
    (ht : calls.length = 2 ∨ Tolerance.within tol s.propose s.point = false)
    (hy : answer calls.length s.propose = .ok y) :
    Divides answer tol x limit
      (Vec.dot (residualChange s s.propose y) (residualChange s s.propose y))

/-- A search of two iterations divides by the second differences of its plain steps and by the
square of one change of the residual. -/
theorem Divides.of_two {answer : Nat → List α → Except Failure (List α)} {tol : List (Tolerance α)}
    {x : List α} {d : α} (h : Divides answer tol x 2 d) : ∃ y z, answer 0 x = .ok y ∧
      answer 1 y = .ok z ∧ (d ∈ Vec.sub (Vec.sub (y.map (2 * ·)) x) z ∨
        ∃ w, answer 2 (Estimate.ofSteps x y z).propose = .ok w ∧
          d = (let s := Estimate.ofSteps x y z
            Vec.dot (residualChange s s.propose w) (residualChange s s.propose w))) := by
  cases h with
  | steps hy hyx hz hzy hd => exact ⟨_, _, hy, hz, .inl hd⟩
  | pass hr hl ht hw =>
    cases hr with
    | steps hy hyx hz hzy => exact ⟨_, _, hy, hz, .inr ⟨_, hw, rfl⟩⟩
    | pass hr =>
      have hmin := hr.two_le_length
      rw [List.length_append, List.length_singleton] at hl
      omega

inductive EndsAt (limit : Nat) (tol : List (Tolerance α)) (calls : List (List α)) (s : Estimate α) :
    Ending (List α) → Prop
  | converged (hc : 2 < calls.length) (hl : calls.length ≤ limit + 1)
    (ht : Tolerance.within tol s.propose s.point = true) :
    EndsAt limit tol calls s ⟨s.propose, true, calls.length - 1, calls.length⟩
  | exhausted (hl : calls.length = limit + 1)
    (ht : calls.length = 2 ∨ Tolerance.within tol s.propose s.point = false) :
    EndsAt limit tol calls s ⟨s.propose, false, limit, limit + 1⟩

theorem EndsAt.length_le {limit : Nat} {tol : List (Tolerance α)} {calls : List (List α)}
    {s : Estimate α} {e : Ending (List α)} (h : EndsAt limit tol calls s e) :
    calls.length ≤ limit + 1 := by
  cases h with
  | converged _ hl => exact hl
  | exhausted hl => exact Nat.le_of_eq hl

theorem EndsAt.of_converged {limit : Nat} {tol : List (Tolerance α)} {calls : List (List α)}
    {s : Estimate α} {e : Ending (List α)} (h : EndsAt limit tol calls s e)
    (hc : e.converged = true) : 2 < calls.length ∧ Tolerance.within tol s.propose s.point = true ∧
      e = ⟨s.propose, true, calls.length - 1, calls.length⟩ := by
  cases h with
  | converged hlen hl ht => exact ⟨hlen, ht, rfl⟩
  | exhausted => cases hc

/-- How a run with a limit comes to an end: at a plain step that passes the test, at a stage, or
with a failure over an answer or over a note. -/
inductive Concluded (caller : Caller (List α) (Grid α) Empty Empty (List α))
    (tol : List (Tolerance α)) (x : List α) (limit : Nat)
    (trace : Trace (List α) Empty (List α) (Ending (List α))) : Prop
  | atStart {y} (hy : reply caller 0 x = .ok y) (hyx : Tolerance.within tol y x = true)
    (hc : trace.evaluations = #[x]) (ho : trace.outcome = .ok ⟨x, true, 0, 1⟩)
  | atStep {y z} (hy : reply caller 0 x = .ok y) (hyx : Tolerance.within tol y x = false)
    (hz : reply caller 1 y = .ok z) (hzy : Tolerance.within tol z y = true)
    (hc : trace.evaluations = #[x, y]) (ho : trace.outcome = .ok ⟨y, true, 0, 2⟩)
  | ended {calls s ending} (hr : Reached (reply caller) tol x calls s)
    (he : EndsAt limit tol calls s ending) (hc : trace.evaluations = calls.toArray)
    (ho : trace.outcome = .ok ending)
  | failed {cause} (hf : (∃ number z, reply caller number z = .error cause) ∨
      ∃ note, caller.shows note = .error cause) (ho : trace.outcome = .error cause)

section Runs
variable {caller : Caller (List α) (Grid α) Empty Empty (List α)} {tol : List (Tolerance α)}
  {x : List α} {limit : Nat} {trace : Trace (List α) Empty (List α) (Ending (List α))}
  {evals : Array (List α)} {slopes : Array Empty} {notes : Array (Note (List α))}

theorem concluded_report {note : Note (List α)} {next : Searching α}
    (hrun : runFrom caller evals slopes notes (.report note next) = trace)
    (h : ∀ notes', runFrom caller evals slopes notes' next = trace →
      Concluded caller tol x limit trace) :
    Concluded caller tol x limit trace := by
  rw [runFrom] at hrun
  split at hrun
  · exact h _ hrun
  · exact h _ hrun
  · rename_i cause hs
    exact .failed (.inr ⟨note, hs⟩) (by rw [← hrun])

theorem concluded_measure {next : List α → Searching α} {p : List α}
    (hrun : runFrom caller evals slopes notes (measure p next) = trace)
    (h : ∀ y, reply caller evals.size p = .ok y →
      runFrom caller (evals.push p) slopes notes (next y) = trace →
      Concluded caller tol x limit trace) :
    Concluded caller tol x limit trace := by
  cases hy : reply caller evals.size p with
  | ok y =>
    rw [runFrom_measure_ok hy] at hrun
    exact h y hy hrun
  | error cause =>
    rw [runFrom_measure_error hy] at hrun
    exact .failed (.inl ⟨_, p, hy⟩) (by rw [← hrun])

/-- A run that stands at a stage before its next call ends at a stage or fails. -/
theorem concluded_iterate {left done : Nat} (hl : left + done = limit) {calls : List (List α)}
    {s : Estimate α} (hr : Reached (reply caller) tol x calls s) (hlen : calls.length = done + 1)
    (ht : calls.length = 2 ∨ Tolerance.within tol s.propose s.point = false)
    (hrun : runFrom caller calls.toArray slopes notes (iterate tol left done s s.propose) = trace) :
    Concluded caller tol x limit trace := by
  induction left generalizing done calls s notes with
  | zero =>
    refine concluded_report hrun fun notes' hrun => ?_
    obtain rfl : done = limit := by omega
    subst hrun
    exact .ended hr (.exhausted hlen ht) rfl rfl
  | succ left ih =>
    refine concluded_measure hrun fun y hy hrun => ?_
    rw [List.push_toArray] at hrun
    have hnext := hr.pass ht hy
    have hmin := hr.two_le_length
    have hlen' : (calls ++ [s.propose]).length = done + 2 := by simp [hlen]
    refine concluded_report hrun fun notes' hrun => ?_
    cases hc : Tolerance.within tol (s.observe s.propose y).propose s.propose with
    | true =>
      simp only [hc, if_true] at hrun
      refine concluded_report hrun fun notes'' hrun => ?_
      subst hrun
      have he : EndsAt limit tol (calls ++ [s.propose]) (s.observe s.propose y) _ :=
        .converged (by omega) (by omega) hc
      rw [hlen'] at he
      exact .ended hnext he rfl rfl
    | false =>
      simp only [hc, Bool.false_eq_true, if_false] at hrun
      exact ih (by omega) hnext hlen' (.inr hc) hrun

/-- Each run that does not fail ends at a plain step or at a stage. -/
theorem concluded_search (hl : 1 ≤ limit) (hrun : (search limit tol x).run caller = trace) :
    Concluded caller tol x limit trace := by
  refine concluded_report hrun fun notes hrun => ?_
  refine concluded_measure hrun fun y hy hrun => ?_
  cases hyx : Tolerance.within tol y x with
  | true =>
    simp only [hyx, if_true] at hrun
    refine concluded_report hrun fun notes' hrun => ?_
    subst hrun
    exact .atStart hy hyx rfl rfl
  | false =>
    simp only [hyx, Bool.false_eq_true, if_false] at hrun
    refine concluded_measure hrun fun z hz hrun => ?_
    cases hzy : Tolerance.within tol z y with
    | true =>
      simp only [hzy, if_true] at hrun
      refine concluded_report hrun fun notes' hrun => ?_
      subst hrun
      exact .atStep hy hyx hz hzy rfl rfl
    | false =>
      simp only [hzy, Bool.false_eq_true, if_false] at hrun
      refine concluded_report hrun fun notes' hrun => ?_
      exact concluded_iterate (Nat.sub_add_cancel hl) (.steps hy hyx hz hzy) rfl (.inl rfl) hrun

/-- The calls of a run from its second one on, each of which it takes a step from unless it ends
there at once, lead to stages within its limit. -/
theorem exists_stage (hl : 1 ≤ limit) (hrun : (search limit tol x).run caller = trace)
    {e : Ending (List α)} (ho : trace.outcome = .ok e) {i : Nat} {p : List α}
    (hp : trace.evaluations[i + 1]? = some p) (hstep : trace.outcome ≠ .ok ⟨p, true, 0, 2⟩) :
    i + 1 ≤ limit ∧ ∃ s, Reached (reply caller) tol x (trace.evaluations.toList.take (i + 2)) s ∧
      s.point = p := by
  rcases concluded_search hl hrun with ⟨-, -, hc, -⟩ | ⟨-, -, -, -, hc, ho'⟩ |
    ⟨hr, he, hc, -⟩ | ⟨-, ho'⟩
  · rw [hc] at hp
    cases hp
  · rw [hc] at hp
    cases i with
    | zero =>
      cases hp
      exact (hstep ho').elim
    | succ i => cases hp
  · rename_i calls s ending
    rw [hc, List.getElem?_toArray] at hp
    obtain ⟨hlt, hget⟩ := List.getElem?_eq_some_iff.1 hp
    have hle := he.length_le
    obtain ⟨s', hs'⟩ := hr.exists_take (Nat.le_add_left 2 i) hlt
    have hlast := hs'.getLast?
    refine ⟨by omega, s', by rwa [hc], ?_⟩
    rw [List.getLast?_take] at hlast
    simpa [hp] using hlast.symm
  · cases ho.symm.trans ho'

end Runs
end Broyden
end RootFinding
