import Mathlib.Tactic.FieldSimp
import Mathlib.Tactic.Ring
import RootFinding.Proofs.FixedPoint.Exact
import RootFinding.Proofs.FixedPoint.Stages
import RootFinding.Proofs.Iteration.FirstPass

/-!
# Secants

With one unknown, the estimate of Broyden's method after each call is the slope of the secant
through the last two points, so that its next point is that of Wegstein's method. With several
unknowns the first accelerated points of these methods and of Steffensen's are the same.
-/
namespace RootFinding
open Iteration Search

namespace Broyden

def Estimate.single (p q h : ℚ) : Estimate ℚ := ⟨[p], [q], [[h]]⟩

theorem propose_single (p q h : ℚ) : (Estimate.single p q h).propose = [h * (q - p) + p] := by
  simp [Estimate.single, Estimate.propose, Vec.sub, Vec.apply, Vec.add, Vec.dot, Vec.mul, Vec.sum]

/-- With one unknown, the estimate is the slope of the secant through the last two points. -/
theorem observe_single {p q h z w : ℚ} (hd : z - w - (p - q) ≠ 0) :
    (Estimate.single p q h).observe [z] [w] = .single z w ((z - p) / (z - w - (p - q))) := by
  have hupdate : h + (z - p - h * (z - w - (p - q))) * (z - w - (p - q)) /
      ((z - w - (p - q)) * (z - w - (p - q))) = (z - p) / (z - w - (p - q)) := by
    field_simp
    ring
  simp [Estimate.single, Estimate.observe, update, residualChange, Vec.sub, Vec.addMatrix, Vec.add,
    Vec.outer, Vec.scale, Vec.apply, Vec.dot, Vec.sum, Vec.mul, hupdate]

theorem ofSteps_single (x y z : ℚ) :
    Estimate.ofSteps [x] [y] [z] = .single y z ((y - x) / (y - z - (x - y))) := by
  have hslope : (y - x) / (2 * y - x - z) = (y - x) / (y - z - (x - y)) := by
    congr 1
    ring
  simpa [Estimate.single, Estimate.ofSteps, slopes, Vec.sub, Vec.div, Vec.diagonal] using hslope

theorem propose_secant (p q z w : ℚ) :
    (Estimate.single z w ((z - p) / (z - w - (p - q)))).propose =
      Wegstein.secants [p] [q] [z] [w] :=
  propose_single ..

theorem change_single (p q h z w : ℚ) :
    Vec.dot (residualChange (.single p q h) [z] [w]) (residualChange (.single p q h) [z] [w]) =
      (z - w - (p - q)) * (z - w - (p - q)) := by
  simp [Estimate.single, residualChange, Vec.sub, Vec.dot, Vec.sum, Vec.mul]

end Broyden

/-- Two traces of which one goes as far as the other at least, and which end alike unless one of
them converged. -/
structure Trace.Agree (b w : Trace (List ℚ) Empty (List ℚ) (Ending (List ℚ))) : Prop where
  calls : b.evaluations.toList <+: w.evaluations.toList ∨
    w.evaluations.toList <+: b.evaluations.toList
  unconverged : (∀ e, b.outcome = .ok e → e.converged = false) →
    (∀ e, w.outcome = .ok e → e.converged = false) →
    b.evaluations = w.evaluations ∧ b.outcome = w.outcome

namespace Trace.Agree
variable {b w : Trace (List ℚ) Empty (List ℚ) (Ending (List ℚ))}

theorem of_eq (hcalls : b.evaluations = w.evaluations) (ho : b.outcome = w.outcome) : b.Agree w :=
  ⟨.inl (by rw [hcalls]), fun _ _ => ⟨hcalls, ho⟩⟩

theorem of_left {e : Ending (List ℚ)} (hcalls : b.evaluations.toList <+: w.evaluations.toList)
    (ho : b.outcome = .ok e) (he : e.converged = true) : b.Agree w := by
  refine ⟨.inl hcalls, fun hb _ => ?_⟩
  rw [hb e ho] at he
  cases he

theorem of_right {e : Ending (List ℚ)} (hcalls : w.evaluations.toList <+: b.evaluations.toList)
    (ho : w.outcome = .ok e) (he : e.converged = true) : b.Agree w := by
  refine ⟨.inr hcalls, fun _ hw => ?_⟩
  rw [hw e ho] at he
  cases he

end Trace.Agree

section Simulation
variable {caller : Caller (List ℚ) (Grid ℚ) Empty Empty (List ℚ)} {shown : Note (List ℚ) → Bool}
  (hs : ∀ note, caller.shows note = .ok (shown note)) {tol : List (Tolerance ℚ)}
  {x : List ℚ} {limit : ℕ}

theorem exists_single {y : List ℚ} {number : ℕ} {a : ℚ} (hy : reply caller number [a] = .ok y) :
    ∃ w, y = [w] :=
  List.length_eq_one_iff.1 (length_of_reply hy)

variable (evals : Array (List ℚ)) (p : List ℚ) (rounds count : ℕ)

include hs in
theorem agree_of_right (slopes slopes' : Array Empty) (notes notes' : Array (Note (List ℚ)))
    (search : Searching ℚ Empty Empty (List ℚ)) :
    (runFrom caller evals slopes notes search).Agree
      (runFrom caller evals slopes' notes' (succeed p rounds count)) := by
  have hw := runFrom_succeed hs evals p rounds count slopes' notes'
  exact .of_right (by rw [hw.1]; exact prefix_evaluations _) hw.2 rfl

include hs in
theorem agree_of_left (slopes slopes' : Array Empty) (notes notes' : Array (Note (List ℚ)))
    (search : Searching ℚ Empty Empty (List ℚ)) :
    (runFrom caller evals slopes notes (succeed p rounds count)).Agree
      (runFrom caller evals slopes' notes' search) := by
  have hb := runFrom_succeed hs evals p rounds count slopes notes
  exact .of_left (by rw [hb.1]; exact prefix_evaluations _) hb.2 rfl

include hs in
/-- From a stage on, as long as neither test is passed, the methods call their function at the same
points. -/
theorem agree_iterate (hdiv : ∀ d, Broyden.Divides (reply caller) tol x limit d → d ≠ 0)
    {left done : ℕ} (hl : left + done = limit) {calls : List (List ℚ)} {p q h : ℚ}
    (hr : Broyden.Reached (reply caller) tol x calls (.single p q h))
    (hlen : calls.length = done + 1)
    (ht : calls.length = 2 ∨
      Tolerance.within tol (Broyden.Estimate.single p q h).propose [p] = false)
    {slopes slopes' : Array Empty} {notes notes' : Array (Note (List ℚ))} {next : List ℚ}
    (hnext : next = (Broyden.Estimate.single p q h).propose) :
    (runFrom caller calls.toArray slopes notes
      (Broyden.iterate tol left done (.single p q h) next)).Agree
    (runFrom caller calls.toArray slopes' notes'
      (Wegstein.iterate tol left done [p] [q] next)) := by
  induction left generalizing done calls p q h slopes slopes' notes notes' next with
  | zero =>
    rw [Broyden.iterate, Wegstein.iterate, giveUp, runFrom_report hs, runFrom_report hs]
    exact .of_eq rfl rfl
  | succ left ih =>
    obtain ⟨z, hz⟩ : ∃ z, next = [z] := ⟨_, hnext.trans (Broyden.propose_single ..)⟩
    rw [Broyden.iterate, Wegstein.iterate, runFrom_report hs]
    have hsize : calls.toArray.size = calls.length := List.size_toArray
    cases hy : reply caller calls.toArray.size next with
    | error cause =>
      rw [runFrom_measure_error hy, runFrom_measure_error hy]
      exact .of_eq rfl rfl
    | ok y =>
      rw [runFrom_measure_ok hy, runFrom_measure_ok hy, runFrom_report hs]
      rw [hsize] at hy
      have hstage := hr.pass ht (hnext ▸ hy)
      have hchange := hdiv _ (.pass hr (by omega) ht (hnext ▸ hy))
      subst hz
      obtain ⟨w, rfl⟩ := exists_single hy
      rw [← hnext] at hstage hchange
      rw [Broyden.change_single] at hchange
      have hd : z - w - (p - q) ≠ 0 := left_ne_zero_of_mul hchange
      rw [Broyden.observe_single hd] at hstage ⊢
      cases hw : Tolerance.within tol [w] [z] with
      | true =>
        simp only [if_true]
        exact agree_of_right hs ..
      | false =>
        simp only [Bool.false_eq_true, if_false]
        cases hb : Tolerance.within tol
            (Broyden.Estimate.single z w ((z - p) / (z - w - (p - q)))).propose [z] with
        | true =>
          simp only [if_true]
          exact agree_of_left hs ..
        | false =>
          simp only [Bool.false_eq_true, if_false]
          rw [List.push_toArray, ← Broyden.propose_secant]
          exact ih (by omega) hstage (by simp [hlen]) (.inr hb) rfl

include hs in
/-- With one unknown, the methods call their function at the same points until one of them
converges. -/
theorem agree_search {a : ℚ} (hl : 1 ≤ limit)
    (hdiv : ∀ d, Broyden.Divides (reply caller) tol [a] limit d → d ≠ 0) :
    ((Broyden.search limit tol [a]).run caller).Agree
      ((Wegstein.search limit tol [a]).run caller) := by
  obtain ⟨left, rfl⟩ := Nat.exists_eq_add_of_le' hl
  rw [run, run, Broyden.search, Wegstein.search, runFrom_report hs, runFrom_report hs]
  cases hy : reply caller (#[] : Array (List ℚ)).size [a] with
  | error cause =>
    rw [runFrom_measure_error hy, runFrom_measure_error hy]
    exact .of_eq rfl rfl
  | ok y =>
    rw [runFrom_measure_ok hy, runFrom_measure_ok hy]
    obtain ⟨y, rfl⟩ := exists_single hy
    cases hyx : Tolerance.within tol [y] [a] with
    | true =>
      simp only [if_true]
      exact agree_of_left hs ..
    | false =>
      simp only [Bool.false_eq_true, if_false, Nat.add_sub_cancel]
      rw [Wegstein.iterate, runFrom_report hs]
      cases hz : reply caller (#[].push [a]).size [y] with
      | error cause =>
        rw [runFrom_measure_error hz, runFrom_measure_error hz]
        exact .of_eq rfl rfl
      | ok z =>
        rw [runFrom_measure_ok hz, runFrom_measure_ok hz]
        obtain ⟨z, rfl⟩ := exists_single hz
        cases hzy : Tolerance.within tol [z] [y] with
        | true =>
          simp only [if_true]
          exact agree_of_left hs ..
        | false =>
          simp only [Bool.false_eq_true, if_false]
          have hr := Broyden.Reached.steps hy hyx hz hzy
          rw [Broyden.ofSteps_single] at hr ⊢
          rw [runFrom_report hs, ← Broyden.propose_secant]
          exact agree_iterate hs hdiv rfl hr rfl (.inl rfl) rfl

include hs in
theorem unconverged_cases (hl : 1 ≤ limit)
    (hb : ∀ e, ((Broyden.search limit tol x).run caller).outcome = .ok e → e.converged = false) :
    (∃ p, ((Broyden.search limit tol x).run caller).outcome =
      .ok ⟨p, false, limit, limit + 1⟩) ∨
    ∃ cause number z, reply caller number z = .error cause ∧
      ((Broyden.search limit tol x).run caller).outcome = .error cause := by
  have hc : Broyden.Concluded caller tol x limit _ := Broyden.concluded_search hl rfl
  rcases hc with ⟨-, -, -, ho⟩ | ⟨-, -, -, -, -, ho⟩ | ⟨hr, he, -, ho⟩ |
    ⟨⟨number, z, hz⟩ | ⟨note, hnote⟩, ho⟩
  · cases hb _ ho
  · cases hb _ ho
  · cases he with
    | converged => cases hb _ ho
    | exhausted => exact .inl ⟨_, ho⟩
  · exact .inr ⟨_, number, z, hz, ho⟩
  · rw [hs] at hnote
    cases hnote

end Simulation

section Accelerated
variable {caller : Caller (List ℚ) (Grid ℚ) Empty Empty (List ℚ)} {shown : Note (List ℚ) → Bool}
  (hs : ∀ note, caller.shows note = .ok (shown note)) {tol : List (Tolerance ℚ)}
  {x y z p : List ℚ} {limit : ℕ}

/-- A search whose first accelerated point is `p`: it ends there if it has no more than the
iteration of the plain steps, and else calls its function there. -/
def Accelerates (caller : Caller (List ℚ) (Grid ℚ) Empty Empty (List ℚ)) (limit : ℕ) (p : List ℚ)
    (search : Searching ℚ Empty Empty (List ℚ)) : Prop :=
  (limit = 1 → (search.run caller).outcome = .ok ⟨p, false, 1, 2⟩) ∧
    (2 ≤ limit → (search.run caller).evaluations[2]? = some p)

/-- A call whose answer does not pass the test makes no other difference. -/
theorem runFrom_measure_failed {evals : Array (List ℚ)} {slopes : Array Empty}
    {notes : Array (Note (List ℚ))} (hy : reply caller evals.size x = .ok y)
    (hyx : Tolerance.within tol y x = false) (stop : Searching ℚ Empty Empty (List ℚ))
    (next : List ℚ → Searching ℚ Empty Empty (List ℚ)) :
    runFrom caller evals slopes notes
        (measure x fun y => if Tolerance.within tol y x then stop else next y) =
      runFrom caller (evals.push x) slopes notes (next y) := by
  rw [runFrom_measure_ok hy]
  simp [hyx]

include hs in
/-- The plain steps leave a search with one iteration less to go. -/
theorem accelerates_of_rest {search : Searching ℚ Empty Empty (List ℚ)}
    (rest : ℕ → Searching ℚ Empty Empty (List ℚ)) {left : ℕ} {notes : Array (Note (List ℚ))}
    (hrun : search.run caller = runFrom caller #[x, y] #[] notes (rest left))
    (hend : rest 0 = giveUp p 1 2) (hcall : ∀ left, StartsAt p (rest (left + 1))) :
    Accelerates caller (left + 1) p search := by
  constructor
  · intro hl
    obtain rfl : left = 0 := by omega
    rw [hrun, hend, giveUp, runFrom_report hs]
    rfl
  · intro hl
    obtain ⟨left, rfl⟩ := Nat.exists_eq_add_of_le' (by omega : 1 ≤ left)
    rw [hrun]
    exact (hcall left).getElem?_runFrom hs

variable (hy : reply caller 0 x = .ok y) (hyx : Tolerance.within tol y x = false)
  (hz : reply caller 1 y = .ok z) (hzy : Tolerance.within tol z y = false) (left : ℕ)

include hs hy hyx hz hzy in
theorem accelerates_broyden : Accelerates caller (left + 1)
    (Broyden.Estimate.ofSteps x y z).propose (Broyden.search (left + 1) tol x) := by
  have hrun : ∃ notes, (Broyden.search (left + 1) tol x).run caller =
      runFrom caller #[x, y] #[] notes (Broyden.iterate tol left 1 (.ofSteps x y z)
        (Broyden.Estimate.ofSteps x y z).propose) := by
    rw [run, Broyden.search, runFrom_report hs, runFrom_measure_failed hy hyx,
      runFrom_measure_failed hz hzy, runFrom_report hs]
    exact ⟨_, rfl⟩
  obtain ⟨notes, hrun⟩ := hrun
  exact accelerates_of_rest hs (fun left => Broyden.iterate tol left 1 _ _) hrun rfl
    fun _ => .evaluate

include hs hy hyx hz hzy in
theorem accelerates_wegstein : Accelerates caller (left + 1) (Wegstein.secants x y y z)
    (Wegstein.search (left + 1) tol x) := by
  have hrun : ∃ notes, (Wegstein.search (left + 1) tol x).run caller =
      runFrom caller #[x, y] #[] notes
        (Wegstein.iterate tol left 1 y z (Wegstein.secants x y y z)) := by
    rw [run, Wegstein.search, runFrom_report hs, runFrom_measure_failed hy hyx, Wegstein.iterate,
      runFrom_report hs, runFrom_measure_failed hz hzy]
    exact ⟨_, rfl⟩
  obtain ⟨notes, hrun⟩ := hrun
  exact accelerates_of_rest hs (fun left => Wegstein.iterate tol left 1 _ _ _) hrun rfl
    fun _ => .report .evaluate

include hs hy hyx hz hzy in
theorem accelerates_steffensen : Accelerates caller (left + 1) (Steffensen.extrapolate x y z)
    (Steffensen.search (left + 1) tol x) := by
  have hrun : ∃ notes, (Steffensen.search (left + 1) tol x).run caller =
      runFrom caller #[x, y] #[] notes
        (Steffensen.iterate tol left 1 (Steffensen.extrapolate x y z)) := by
    rw [run, Steffensen.search, runFrom_report hs, Steffensen.iterate, runFrom_report hs,
      runFrom_measure_failed hy hyx, runFrom_measure_failed hz hzy]
    exact ⟨_, rfl⟩
  obtain ⟨notes, hrun⟩ := hrun
  exact accelerates_of_rest hs (fun left => Steffensen.iterate tol left 1 _) hrun rfl
    fun _ => .report .evaluate

end Accelerated

section Vectors
variable {n : ℕ}

theorem Broyden.propose_ofSteps (x y z : Fin n → ℚ) :
    (Estimate.ofSteps (List.ofFn x) (List.ofFn y) (List.ofFn z)).propose =
      List.ofFn fun i => (y i - x i) / (2 * y i - x i - z i) * (z i - y i) + y i := by
  rw [ofSteps_exact, propose_exact]
  congr 1
  funext i
  simp [Matrix.mulVec_diagonal]

theorem secant_eq (x y z : ℚ) :
    Wegstein.secant x y y z = (y - x) / (2 * y - x - z) * (z - y) + y := by
  have hd : y - z - (x - y) = 2 * y - x - z := by ring
  rw [Wegstein.secant, hd]

theorem aitken_eq {x y z : ℚ} (hd : 2 * y - x - z ≠ 0) :
    Steffensen.aitken x y z = (y - x) / (2 * y - x - z) * (z - y) + y := by
  have hd' : z - 2 * y + x = -(2 * y - x - z) := by ring
  change x - (y - x) * (y - x) / (z - 2 * y + x) = _
  rw [hd']
  generalize hdef : 2 * y - x - z = d at hd
  obtain rfl : z = 2 * y - x - d := by rw [← hdef]; ring
  field_simp
  ring

/-- The first accelerated points are the same where nothing is divided by zero. -/
theorem accelerated_eq {x y z : List ℚ} (hy : y.length = x.length) (hz : z.length = y.length)
    (hd : ∀ d ∈ Vec.sub (Vec.sub (y.map (2 * ·)) x) z, d ≠ 0) :
    Wegstein.secants x y y z = (Broyden.Estimate.ofSteps x y z).propose ∧
      Steffensen.extrapolate x y z = (Broyden.Estimate.ofSteps x y z).propose := by
  generalize hn : x.length = n at hy
  obtain ⟨x, rfl⟩ := exists_eq_ofFn hn
  obtain ⟨y, rfl⟩ := exists_eq_ofFn hy
  obtain ⟨z, rfl⟩ := exists_eq_ofFn (hz.trans hy)
  rw [List.map_ofFn, Vec.sub_ofFn, Vec.sub_ofFn, List.forall_mem_ofFn_iff] at hd
  rw [Wegstein.secants_ofFn, Steffensen.extrapolate_ofFn, Broyden.propose_ofSteps]
  constructor
  · congr 1
    funext i
    exact secant_eq ..
  · congr 1
    funext i
    exact aitken_eq (hd i)

end Vectors

/-- With one unknown, Broyden's and Wegstein's methods call their function at the same points until
one of them converges, as long as nothing is divided by zero; where none does, they end alike after
the last iteration, or with the failure of an answer. With any number of unknowns, the first points
that these methods and Steffensen's come to after two plain steps are the same. -/
theorem same_secants {caller : Caller (List ℚ) (Grid ℚ) Empty Empty (List ℚ)}
    {shown : Note (List ℚ) → Bool} (hs : ∀ note, caller.shows note = .ok (shown note))
    {tol : List (Tolerance ℚ)} {limit : ℕ} (hl : 1 ≤ limit) :
    (∀ a : ℚ, (∀ d, Broyden.Divides (reply caller) tol [a] limit d → d ≠ 0) →
      ((Broyden.search limit tol [a]).run caller).Agree
        ((Wegstein.search limit tol [a]).run caller) ∧
      ((∀ e, ((Broyden.search limit tol [a]).run caller).outcome = .ok e → e.converged = false) →
        (∃ p, ((Broyden.search limit tol [a]).run caller).outcome =
          .ok ⟨p, false, limit, limit + 1⟩) ∨
        ∃ cause number z, reply caller number z = .error cause ∧
          ((Broyden.search limit tol [a]).run caller).outcome = .error cause)) ∧
    ∀ x y z, reply caller 0 x = .ok y → Tolerance.within tol y x = false →
      reply caller 1 y = .ok z → Tolerance.within tol z y = false →
      (∀ d ∈ Vec.sub (Vec.sub (y.map (2 * ·)) x) z, d ≠ 0) →
      ∃ p, p = (Broyden.Estimate.ofSteps x y z).propose ∧ p = Wegstein.secants x y y z ∧
        p = Steffensen.extrapolate x y z ∧
        Accelerates caller limit p (Broyden.search limit tol x) ∧
        Accelerates caller limit p (Wegstein.search limit tol x) ∧
        Accelerates caller limit p (Steffensen.search limit tol x) := by
  refine ⟨fun a hdiv => ⟨agree_search hs hl hdiv, unconverged_cases hs hl⟩, ?_⟩
  intro x y z hy hyx hz hzy hd
  obtain ⟨hsecant, haitken⟩ := accelerated_eq (length_of_reply hy) (length_of_reply hz) hd
  obtain ⟨left, rfl⟩ := Nat.exists_eq_add_of_le' hl
  refine ⟨_, rfl, hsecant.symm, haitken.symm, accelerates_broyden hs hy hyx hz hzy left, ?_, ?_⟩
  · exact hsecant ▸ accelerates_wegstein hs hy hyx hz hzy left
  · exact haitken ▸ accelerates_steffensen hs hy hyx hz hzy left

/-- A quarter of the square of each number, and the number of calls before. -/
def growing : Caller (List ℚ) (Grid ℚ) Empty Empty (List ℚ) where
  value number x := .ok (.vector (x.map fun a => a * a / 4 + number))
  slope _ := Empty.elim
  shows _ := .ok false

theorem reply_growing (number : ℕ) (x : List ℚ) :
    reply growing number x = .ok (x.map fun a => a * a / 4 + number) := by
  simp [reply, growing, Grid.vector]

def growingTolerance : List (Tolerance ℚ) := [⟨1 / 1000, 0⟩]

theorem divides_growing (d : ℚ)
    (h : Broyden.Divides (reply growing) growingTolerance [1] 2 d) : d ≠ 0 := by
  obtain ⟨y, z, hy, hz, hd⟩ := h.of_two
  rw [reply_growing] at hy hz
  cases hy
  cases hz
  rcases hd with hd | ⟨w, hw, rfl⟩
  · clear h
    revert d
    decide +kernel
  · rw [reply_growing] at hw
    cases hw
    decide +kernel

def StaysUnconverged (search : Searching ℚ Empty Empty (List ℚ)) : Prop :=
  (search.run growing).outcome.toOption.map Ending.converged = some false

theorem converged_of_staysUnconverged {search : Searching ℚ Empty Empty (List ℚ)}
    (h : StaysUnconverged search) (e : Ending (List ℚ))
    (he : (search.run growing).outcome = .ok e) : e.converged = false := by
  rw [StaysUnconverged, he] at h
  exact Option.some.inj h

/-- From one, neither method converges in two iterations, and they end alike; Steffensen's method
comes to their first accelerated point. -/
theorem same_secants_growing :
    (∃ p, ((Broyden.search 2 growingTolerance [1]).run growing).outcome = .ok ⟨p, false, 2, 3⟩ ∧
      ((Wegstein.search 2 growingTolerance [1]).run growing).outcome = .ok ⟨p, false, 2, 3⟩) ∧
    ∃ p, Accelerates growing 2 p (Wegstein.search 2 growingTolerance [1]) ∧
      Accelerates growing 2 p (Steffensen.search 2 growingTolerance [1]) := by
  have hs : ∀ note, growing.shows note = .ok false := fun _ => rfl
  have hbroyden : StaysUnconverged (Broyden.search 2 growingTolerance [1]) := by
    unfold StaysUnconverged
    decide +kernel
  have hwegstein : StaysUnconverged (Wegstein.search 2 growingTolerance [1]) := by
    unfold StaysUnconverged
    decide +kernel
  obtain ⟨hsingle, hseveral⟩ := same_secants hs (by decide : 1 ≤ 2)
  obtain ⟨hagree, hcases⟩ := hsingle 1 divides_growing
  obtain ⟨-, ho⟩ := hagree.unconverged (converged_of_staysUnconverged hbroyden)
    (converged_of_staysUnconverged hwegstein)
  constructor
  · rcases hcases (converged_of_staysUnconverged hbroyden) with ⟨p, hp⟩ | ⟨cause, number, z, hz, -⟩
    · exact ⟨p, hp, ho ▸ hp⟩
    · rw [reply_growing] at hz
      cases hz
  · obtain ⟨p, -, -, -, -, hw, hsteffensen⟩ := hseveral [1] _ _ (reply_growing 0 _)
      (by decide +kernel) (reply_growing 1 _) (by decide +kernel) (by decide +kernel)
    exact ⟨p, hw, hsteffensen⟩

end RootFinding
