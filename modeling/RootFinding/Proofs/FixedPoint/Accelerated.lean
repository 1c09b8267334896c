import RootFinding.Proofs.FixedPoint.Stages

/-!
# Stages of Steffensen's and Wegstein's methods

The points that iterations of these methods start at, and what they divide by, are described without
the tree of questions. Where notes do not fail, the calls of a run are exactly these points with
their plain steps, so that a run divides by nothing else.
-/
namespace RootFinding
open Iteration Search
variable {α : Type} [Scalar α]

section Divisors
variable (answer : Nat → List α → Except Failure (List α)) (tol : List (Tolerance α)) (x : List α)

/-- The points at which the iterations of Steffensen's method start, by the number of iterations
before. Neither plain step of an earlier one passed the test. -/
inductive Steffensen.Reached : Nat → List α → Prop
  | start : Reached 0 x
  | pass {k p y z} (hr : Reached k p) (hy : answer (2 * k) p = .ok y)
    (hyp : Tolerance.within tol y p = false) (hz : answer (2 * k + 1) y = .ok z)
    (hzy : Tolerance.within tol z y = false) : Reached (k + 1) (extrapolate p y z)

/-- What Steffensen's method divides by: the second differences of the plain steps of each
iteration within the limit. -/
inductive Steffensen.Divides (limit : Nat) : α → Prop
  | iteration {k p y z d} (hr : Reached answer tol x k p) (hk : k < limit)
    (hy : answer (2 * k) p = .ok y) (hyp : Tolerance.within tol y p = false)
    (hz : answer (2 * k + 1) y = .ok z) (hzy : Tolerance.within tol z y = false)
    (hd : d ∈ Vec.add (Vec.sub z (y.map (2 * ·))) p) : Divides limit d

/-- The points of Wegstein's method after so many iterations: the last called one with its value,
and the next one. -/
inductive Wegstein.Reached : Nat → List α → List α → List α → Prop
  | start {y} (hy : answer 0 x = .ok y) (hyx : Tolerance.within tol y x = false) :
    Reached 0 x y y
  | pass {k p' y' p y} (hr : Reached k p' y' p) (hy : answer (k + 1) p = .ok y)
    (hyp : Tolerance.within tol y p = false) : Reached (k + 1) p y (secants p' y' p y)

/-- What Wegstein's method divides by: the change of the residual from the last called point to the
next one, in each iteration within the limit. -/
inductive Wegstein.Divides (limit : Nat) : α → Prop
  | iteration {k p' y' p y d} (hr : Reached answer tol x k p' y' p) (hk : k < limit)
    (hy : answer (k + 1) p = .ok y) (hyp : Tolerance.within tol y p = false)
    (hd : d ∈ Vec.sub (Vec.sub p y) (Vec.sub p' y')) : Divides limit d

end Divisors

variable {caller : Caller (List α) (Grid α) Empty Empty (List α)} {shown : Note (List α) → Bool}
  {tol : List (Tolerance α)} {x p : List α} {d : α} {limit k left : Nat}
  (hs : ∀ note, caller.shows note = .ok (shown note))

section Calls
variable {evals : Array (List α)} (slopes : Array Empty) (notes : Array (Note (List α)))

include hs in
/-- A call that fails, or whose value passes the test, is the last one of a run. -/
theorem Iteration.size_le_or_goesOn (hsize : evals.size = k) (q : List α) (rounds count : Nat)
    (next : List α → Searching α Empty Empty (List α)) :
    (runFrom caller evals slopes notes (measure q fun y =>
      if Tolerance.within tol y q then succeed q rounds count else next y)).evaluations.size ≤
        k + 1 ∨
      ∃ y, reply caller k q = .ok y ∧ Tolerance.within tol y q = false ∧
        runFrom caller evals slopes notes (measure q fun y =>
          if Tolerance.within tol y q then succeed q rounds count else next y) =
            runFrom caller (evals.push q) slopes notes (next y) := by
  subst hsize
  cases hy : reply caller evals.size q with
  | error cause =>
    left
    rw [runFrom_measure_error hy]
    exact Nat.le_of_eq (Array.size_push q)
  | ok y =>
    rw [runFrom_measure_ok hy]
    cases hyq : Tolerance.within tol y q with
    | true =>
      left
      rw [if_pos rfl, (runFrom_succeed hs ..).1]
      exact Nat.le_of_eq (Array.size_push q)
    | false =>
      right
      exact ⟨y, rfl, hyq, congrArg _ (if_neg Bool.false_ne_true)⟩

end Calls

namespace Steffensen

include hs in
/-- A run comes to each reached point within its limit, with two calls for each iteration before. -/
theorem Reached.exists_runFrom (hr : Reached (reply caller) tol x k p) (hl : left + k = limit) :
    ∃ evals notes, evals.size = 2 * k ∧ (search limit tol x).run caller =
      runFrom caller evals #[] notes (iterate tol left k p) := by
  induction hr generalizing left with
  | start =>
    obtain rfl : left = limit := hl
    exact ⟨#[], _, rfl, runFrom_report hs ..⟩
  | @pass k p y z _ hy hyp hz hzy ih =>
    obtain ⟨evals, notes, hsize, hrun⟩ := ih (show left + 1 + k = limit by omega)
    have hy' : reply caller evals.size p = .ok y := by rw [hsize, hy]
    have hz' : reply caller (evals.push p).size y = .ok z := by rw [Array.size_push, hsize, hz]
    have hlength : ((evals.push p).push y).size = 2 * (k + 1) := by
      rw [Array.size_push, Array.size_push, hsize]
      omega
    rw [iterate, runFrom_report hs, runFrom_measure_ok hy', if_neg (Bool.eq_false_iff.1 hyp),
      runFrom_measure_ok hz', if_neg (Bool.eq_false_iff.1 hzy)] at hrun
    exact ⟨_, _, hlength, hrun⟩

include hs in
theorem Reached.call (hr : Reached (reply caller) tol x k p) (hk : k < limit) :
    ((search limit tol x).run caller).evaluations[2 * k]? = some p := by
  obtain ⟨left, hl⟩ : ∃ left, left + 1 + k = limit := ⟨limit - k - 1, by omega⟩
  obtain ⟨evals, notes, hsize, hrun⟩ := hr.exists_runFrom hs hl
  rw [hrun, iterate, runFrom_report hs, ← hsize]
  exact getElem?_evaluate ..

include hs in
theorem Reached.step_call (hr : Reached (reply caller) tol x k p) (hk : k < limit) {y : List α}
    (hy : reply caller (2 * k) p = .ok y) (hyp : Tolerance.within tol y p = false) :
    ((search limit tol x).run caller).evaluations[2 * k + 1]? = some y := by
  obtain ⟨left, hl⟩ : ∃ left, left + 1 + k = limit := ⟨limit - k - 1, by omega⟩
  obtain ⟨evals, notes, hsize, hrun⟩ := hr.exists_runFrom hs hl
  have hy' : reply caller evals.size p = .ok y := by rw [hsize, hy]
  rw [hrun, iterate, runFrom_report hs, runFrom_measure_ok hy', ← hsize, ← Array.size_push]
  simp only [hyp, Bool.false_eq_true, if_false]
  exact getElem?_evaluate ..

include hs in
/-- A run of more than two calls from a reached point on goes on after the extrapolation. -/
theorem Reached.size_le_or (hr : Reached (reply caller) tol x k p) (hk : k ≤ limit) :
    ((search limit tol x).run caller).evaluations.size ≤ 2 * k + 1 ∨
      ∃ y, reply caller (2 * k) p = .ok y ∧ Tolerance.within tol y p = false ∧
        (((search limit tol x).run caller).evaluations.size ≤ 2 * k + 2 ∨
          ∃ z, reply caller (2 * k + 1) y = .ok z ∧ Tolerance.within tol z y = false) := by
  obtain ⟨left, hl⟩ : ∃ left, left + k = limit := ⟨limit - k, Nat.sub_add_cancel hk⟩
  obtain ⟨evals, notes, hsize, hrun⟩ := hr.exists_runFrom hs hl
  rw [hrun]
  cases left with
  | zero =>
    rw [iterate, evaluations_giveUp hs]
    omega
  | succ left =>
    rw [iterate, runFrom_report hs]
    refine (size_le_or_goesOn hs _ _ hsize ..).imp id fun ⟨y, hy, hyp, hgoes⟩ => ⟨y, hy, hyp, ?_⟩
    have hpush : (evals.push p).size = 2 * k + 1 := by rw [Array.size_push, hsize]
    rw [hgoes]
    exact (size_le_or_goesOn hs _ _ hpush ..).imp id (Exists.imp fun z h => ⟨h.1, h.2.1⟩)

include hs in
theorem Reached.lt_of_lt_size (hr : Reached (reply caller) tol x k p) (hk : k ≤ limit)
    (h : 2 * k < ((search limit tol x).run caller).evaluations.size) : k < limit := by
  refine Nat.lt_of_le_of_ne hk fun heq => ?_
  obtain ⟨evals, notes, hsize, hrun⟩ := hr.exists_runFrom hs ((Nat.zero_add k).trans heq)
  rw [hrun, iterate, evaluations_giveUp hs] at h
  exact Nat.ne_of_lt h hsize.symm

include hs in
theorem exists_reached (h : 2 * k < ((search limit tol x).run caller).evaluations.size) :
    k < limit ∧ ∃ p, Reached (reply caller) tol x k p := by
  induction k with
  | zero => exact ⟨Reached.start.lt_of_lt_size hs (Nat.zero_le _) h, x, .start⟩
  | succ k ih =>
    obtain ⟨hk, p, hr⟩ := ih (by omega)
    rcases hr.size_le_or hs (Nat.le_of_lt hk) with hle | ⟨y, hy, hyp, hle | ⟨z, hz, hzy⟩⟩
    · omega
    · omega
    · have hnext := hr.pass hy hyp hz hzy
      exact ⟨hnext.lt_of_lt_size hs hk h, _, hnext⟩

include hs in
/-- The reached points within the limit are the calls of a run at even places. -/
theorem call_iff : ((search limit tol x).run caller).evaluations[2 * k]? = some p ↔
    k < limit ∧ Reached (reply caller) tol x k p := by
  refine ⟨fun h => ?_, fun ⟨hk, hr⟩ => hr.call hs hk⟩
  obtain ⟨hk, q, hr⟩ := exists_reached hs (Array.getElem?_eq_some_iff.1 h).1
  obtain rfl : q = p := Option.some.inj ((hr.call hs hk).symm.trans h)
  exact ⟨hk, hr⟩

include hs in
/-- The calls at odd places are the values at the reached points that do not pass the test. -/
theorem step_call_iff {y : List α} :
    ((search limit tol x).run caller).evaluations[2 * k + 1]? = some y ↔
      k < limit ∧ ∃ p, Reached (reply caller) tol x k p ∧ reply caller (2 * k) p = .ok y ∧
        Tolerance.within tol y p = false := by
  refine ⟨fun h => ?_, fun ⟨hk, p, hr, hy, hyp⟩ => hr.step_call hs hk hy hyp⟩
  have hlt := (Array.getElem?_eq_some_iff.1 h).1
  obtain ⟨hk, p, hr⟩ := exists_reached hs (Nat.lt_of_succ_lt hlt)
  rcases hr.size_le_or hs (Nat.le_of_lt hk) with hle | ⟨w, hw, hwp, -⟩
  · omega
  · obtain rfl : w = y := Option.some.inj ((hr.step_call hs hk hw hwp).symm.trans h)
    exact ⟨hk, p, hr, hw, hwp⟩

include hs in
/-- A run divides by the second differences of two successive plain steps that it calls, where the
value at the second one does not pass the test. -/
theorem divides_iff : Divides (reply caller) tol x limit d ↔
    ∃ k p y z, ((search limit tol x).run caller).evaluations[2 * k]? = some p ∧
      ((search limit tol x).run caller).evaluations[2 * k + 1]? = some y ∧
      reply caller (2 * k + 1) y = .ok z ∧ Tolerance.within tol z y = false ∧
      d ∈ Vec.add (Vec.sub z (y.map (2 * ·))) p := by
  constructor
  · rintro ⟨hr, hk, hy, hyp, hz, hzy, hd⟩
    exact ⟨_, _, _, _, hr.call hs hk, hr.step_call hs hk hy hyp, hz, hzy, hd⟩
  · rintro ⟨k, p, y, z, hp, hy, hz, hzy, hd⟩
    obtain ⟨hk, hr⟩ := (call_iff hs).1 hp
    obtain ⟨-, q, hq, hyq, hyp⟩ := (step_call_iff hs).1 hy
    obtain rfl : q = p := Option.some.inj ((hq.call hs hk).symm.trans hp)
    exact .iteration hr hk hyq hyp hz hzy hd

end Steffensen

namespace Wegstein
variable {p' y' : List α}

theorem Reached.reply_eq (hr : Reached (reply caller) tol x k p' y' p) :
    reply caller k p' = .ok y' := by
  cases hr with
  | start hy => exact hy
  | pass _ hy => exact hy

include hs in
/-- A run comes to each reached point within its limit right after the call before. -/
theorem Reached.exists_runFrom (hr : Reached (reply caller) tol x k p' y' p)
    (hl : left + k = limit) : ∃ (evals : Array (List α)) (notes : Array (Note (List α))),
      evals.size = k ∧ (search limit tol x).run caller =
        runFrom caller (evals.push p') #[] notes (iterate tol left k p' y' p) := by
  induction hr generalizing left with
  | @start y hy hyx =>
    obtain rfl : left = limit := hl
    have hrun : (search left tol x).run caller = runFrom caller #[] #[] #[] (search left tol x) :=
      rfl
    rw [search, runFrom_report hs, runFrom_measure_ok hy, if_neg (Bool.eq_false_iff.1 hyx)] at hrun
    exact ⟨#[], _, rfl, hrun⟩
  | @pass k p' y' p y _ hy hyp ih =>
    obtain ⟨evals, notes, hsize, hrun⟩ := ih (show left + 1 + k = limit by omega)
    have hy' : reply caller (evals.push p').size p = .ok y := by rw [Array.size_push, hsize, hy]
    rw [iterate, runFrom_report hs, runFrom_measure_ok hy', if_neg (Bool.eq_false_iff.1 hyp)] at hrun
    exact ⟨_, _, by rw [Array.size_push, hsize], hrun⟩

include hs in
/-- The last called point of a stage and the next one are successive calls. -/
theorem Reached.calls (hr : Reached (reply caller) tol x k p' y' p) (hk : k < limit) :
    ((search limit tol x).run caller).evaluations[k]? = some p' ∧
      ((search limit tol x).run caller).evaluations[k + 1]? = some p := by
  obtain ⟨left, hl⟩ : ∃ left, left + 1 + k = limit := ⟨limit - k - 1, by omega⟩
  obtain ⟨evals, notes, hsize, hrun⟩ := hr.exists_runFrom hs hl
  rw [hrun, iterate, runFrom_report hs, ← hsize]
  constructor
  · rw [← Array.getElem?_toList]
    refine getElem?_prefix_eq_some (prefix_evaluations _) ?_
    rw [Array.getElem?_toList, Array.getElem?_push_size]
  · rw [← Array.size_push p']
    exact getElem?_evaluate ..

include hs in
theorem Reached.size_le_or (hr : Reached (reply caller) tol x k p' y' p) (hk : k ≤ limit) :
    ((search limit tol x).run caller).evaluations.size ≤ k + 2 ∨
      ∃ y, reply caller (k + 1) p = .ok y ∧ Tolerance.within tol y p = false := by
  obtain ⟨left, hl⟩ : ∃ left, left + k = limit := ⟨limit - k, Nat.sub_add_cancel hk⟩
  obtain ⟨evals, notes, hsize, hrun⟩ := hr.exists_runFrom hs hl
  have hpush : (evals.push p').size = k + 1 := by rw [Array.size_push, hsize]
  rw [hrun]
  cases left with
  | zero =>
    rw [iterate, evaluations_giveUp hs]
    omega
  | succ left =>
    rw [iterate, runFrom_report hs]
    exact (size_le_or_goesOn hs _ _ hpush ..).imp id (Exists.imp fun y h => ⟨h.1, h.2.1⟩)

include hs in
theorem Reached.lt_of_lt_size (hr : Reached (reply caller) tol x k p' y' p) (hk : k ≤ limit)
    (h : k + 1 < ((search limit tol x).run caller).evaluations.size) : k < limit := by
  refine Nat.lt_of_le_of_ne hk fun heq => ?_
  obtain ⟨evals, notes, hsize, hrun⟩ := hr.exists_runFrom hs ((Nat.zero_add k).trans heq)
  rw [hrun, iterate, evaluations_giveUp hs, Array.size_push] at h
  omega

include hs in
/-- A second call comes after a plain step that does not pass the test. -/
theorem exists_start (h : 1 < ((search limit tol x).run caller).evaluations.size) :
    ∃ y, Reached (reply caller) tol x 0 x y y := by
  rw [run, search, runFrom_report hs] at h
  rcases size_le_or_goesOn hs #[] _ rfl x 0 1 fun y => iterate tol limit 0 x y y
    with hle | ⟨y, hy, hyx, -⟩
  · exact absurd h (Nat.not_lt.2 hle)
  · exact ⟨y, .start hy hyx⟩

include hs in
theorem exists_reached (h : k + 1 < ((search limit tol x).run caller).evaluations.size) :
    k < limit ∧ ∃ p' y' p, Reached (reply caller) tol x k p' y' p := by
  induction k with
  | zero =>
    obtain ⟨y, hr⟩ := exists_start hs h
    exact ⟨hr.lt_of_lt_size hs (Nat.zero_le _) h, x, y, y, hr⟩
  | succ k ih =>
    obtain ⟨hk, p', y', p, hr⟩ := ih (by omega)
    rcases hr.size_le_or hs (Nat.le_of_lt hk) with hle | ⟨y, hy, hyp⟩
    · omega
    · have hnext := hr.pass hy hyp
      exact ⟨hnext.lt_of_lt_size hs hk h, _, _, _, hnext⟩

include hs in
/-- The next points within the limit are the calls of a run after its first one. -/
theorem call_iff : ((search limit tol x).run caller).evaluations[k + 1]? = some p ↔
    k < limit ∧ ∃ p' y', Reached (reply caller) tol x k p' y' p := by
  refine ⟨fun h => ?_, fun ⟨hk, p', y', hr⟩ => (hr.calls hs hk).2⟩
  obtain ⟨hk, p', y', q, hr⟩ := exists_reached hs (Array.getElem?_eq_some_iff.1 h).1
  obtain rfl : q = p := Option.some.inj ((hr.calls hs hk).2.symm.trans h)
  exact ⟨hk, p', y', hr⟩

include hs in
/-- A run divides by the changes of the residual between successive calls of which the later one
does not pass the test. -/
theorem divides_iff : Divides (reply caller) tol x limit d ↔
    ∃ k p' y' p y, ((search limit tol x).run caller).evaluations[k]? = some p' ∧
      reply caller k p' = .ok y' ∧
      ((search limit tol x).run caller).evaluations[k + 1]? = some p ∧
      reply caller (k + 1) p = .ok y ∧ Tolerance.within tol y p = false ∧
      d ∈ Vec.sub (Vec.sub p y) (Vec.sub p' y') := by
  constructor
  · rintro ⟨hr, hk, hy, hyp, hd⟩
    obtain ⟨hp', hp⟩ := hr.calls hs hk
    exact ⟨_, _, _, _, _, hp', hr.reply_eq, hp, hy, hyp, hd⟩
  · rintro ⟨k, p', y', p, y, hp', hy', hp, hy, hyp, hd⟩
    obtain ⟨hk, q', w', hr⟩ := (call_iff hs).1 hp
    obtain rfl : q' = p' := Option.some.inj ((hr.calls hs hk).1.symm.trans hp')
    obtain rfl : w' = y' := Except.ok.inj (hr.reply_eq.symm.trans hy')
    exact .iteration hr hk hy hyp hd

end Wegstein
end RootFinding
