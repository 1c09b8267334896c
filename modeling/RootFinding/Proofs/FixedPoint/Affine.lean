import Mathlib.LinearAlgebra.Matrix.DotProduct
import RootFinding.Proofs.FixedPoint.Accelerated
import RootFinding.Proofs.FixedPoint.Secants
import RootFinding.Proofs.Truncation.Looser

/-!
# Affine problems

A function is affine in each component by itself where each number of its value is a slope times
the same number of its argument, and an offset. Without a slope of one it has a single fixed point,
and over exact fractions this is the first accelerated point of each fixed point method. A search
that starts apart from it in every component therefore divides by nothing that is zero and ends
after three calls at most.
-/
namespace RootFinding
open Iteration Search

namespace Affine
variable {n : ℕ}

def value (a b v : Fin n → ℚ) : Fin n → ℚ := fun i => a i * v i + b i

def fixed (a b : Fin n → ℚ) : Fin n → ℚ := fun i => b i / (1 - a i)

section Numbers
variable {a b x : ℚ}

theorem value_fixed (ha : a ≠ 1) : a * (b / (1 - a)) + b = b / (1 - a) := by
  have hd : 1 - a ≠ 0 := sub_ne_zero.2 ha.symm
  field_simp
  ring

/-- Plain steps go away from the fixed point, or toward it, by powers of the slope. -/
theorem second_difference (ha : a ≠ 1) :
    2 * (a * x + b) - x - (a * (a * x + b) + b) = -((1 - a) ^ 2 * (x - b / (1 - a))) := by
  have hd : 1 - a ≠ 0 := sub_ne_zero.2 ha.symm
  field_simp
  ring

theorem second_difference_ne_zero (ha : a ≠ 1) (hx : x ≠ b / (1 - a)) :
    2 * (a * x + b) - x - (a * (a * x + b) + b) ≠ 0 := by
  rw [second_difference ha, neg_ne_zero]
  exact mul_ne_zero (pow_ne_zero 2 (sub_ne_zero.2 ha.symm)) (sub_ne_zero.2 hx)

theorem accelerated (ha : a ≠ 1) (hx : x ≠ b / (1 - a)) :
    (a * x + b - x) / (2 * (a * x + b) - x - (a * (a * x + b) + b)) *
      (a * (a * x + b) + b - (a * x + b)) + (a * x + b) = b / (1 - a) := by
  rw [second_difference ha]
  have hd : 1 - a ≠ 0 := sub_ne_zero.2 ha.symm
  have he : x - b / (1 - a) ≠ 0 := sub_ne_zero.2 hx
  obtain ⟨e, hxe⟩ : ∃ e, x - b / (1 - a) = e := ⟨_, rfl⟩
  rw [hxe] at he ⊢
  obtain rfl : x = b / (1 - a) + e := by rw [← hxe]; ring
  field_simp
  ring

end Numbers

section Vectors
variable {a b x : Fin n → ℚ} (ha : ∀ i, a i ≠ 1)

include ha in
theorem stays : value a b (fixed a b) = fixed a b := by
  funext i
  exact value_fixed (ha i)

variable (hx : ∀ i, x i ≠ fixed a b i)

include ha hx in
theorem accelerated_ofFn : List.ofFn (fun i => (value a b x i - x i) /
      (2 * value a b x i - x i - value a b (value a b x) i) *
        (value a b (value a b x) i - value a b x i) + value a b x i) =
    List.ofFn (fixed a b) := by
  congr 1
  funext i
  exact accelerated (ha i) (hx i)

include ha hx in
theorem ne_zero_of_mem_second_difference {d : ℚ}
    (hd : d ∈ Vec.sub (Vec.sub ((List.ofFn (value a b x)).map (2 * ·)) (List.ofFn x))
      (List.ofFn (value a b (value a b x)))) : d ≠ 0 := by
  rw [List.map_ofFn, Vec.sub_ofFn, Vec.sub_ofFn, List.mem_ofFn] at hd
  obtain ⟨i, rfl⟩ := hd
  exact second_difference_ne_zero (ha i) (hx i)

include ha hx in
theorem secants_eq : Wegstein.secants (List.ofFn x) (List.ofFn (value a b x))
    (List.ofFn (value a b x)) (List.ofFn (value a b (value a b x))) = List.ofFn (fixed a b) := by
  rw [Wegstein.secants_ofFn, ← accelerated_ofFn ha hx]
  simp only [secant_eq]

include ha hx in
theorem extrapolate_eq : Steffensen.extrapolate (List.ofFn x) (List.ofFn (value a b x))
    (List.ofFn (value a b (value a b x))) = List.ofFn (fixed a b) := by
  rw [Steffensen.extrapolate_ofFn, ← accelerated_ofFn ha hx]
  congr 1
  funext i
  exact aitken_eq (second_difference_ne_zero (ha i) (hx i))

include ha hx in
theorem propose_eq : (Broyden.Estimate.ofSteps (List.ofFn x) (List.ofFn (value a b x))
    (List.ofFn (value a b (value a b x)))).propose = List.ofFn (fixed a b) := by
  rw [Broyden.propose_ofSteps, accelerated_ofFn ha hx]

end Vectors

end Affine

namespace Tolerance

/-- A tolerance that is passed by every number against itself. -/
structure Positive (tol : Tolerance ℚ) : Prop where
  absolute : 0 < tol.absolute
  relative : 0 ≤ tol.relative

theorem Positive.close_self {tol : Tolerance ℚ} (h : tol.Positive) (a : ℚ) :
    tol.close a a = true := by
  have hbound : 0 < tol.absolute + tol.relative * Scalar.maximum (Scalar.abs a) (Scalar.abs a) :=
    add_pos_of_pos_of_nonneg h.absolute (mul_nonneg h.relative (maximum_abs_nonneg a a))
  rw [close, decide_eq_true_eq, bound, sub_self, Brent.abs_eq, abs_zero]
  exact hbound

theorem within_self {tol : List (Tolerance ℚ)} (h : ∀ t ∈ tol, t.Positive) (x : List ℚ) :
    within tol x x = true := by
  induction tol generalizing x with
  | nil => rfl
  | cons t tol ih =>
    cases x with
    | nil => rfl
    | cons a x =>
      rw [within, Bool.and_eq_true]
      exact ⟨(h t List.mem_cons_self).close_self a,
        ih (fun t ht => h t (List.mem_cons_of_mem _ ht)) x⟩

end Tolerance

namespace Affine
variable {n : ℕ} {a b x : Fin n → ℚ} {caller : Caller (List ℚ) (Grid ℚ) Empty Empty (List ℚ)}
  {shown : Note (List ℚ) → Bool} {tol : List (Tolerance ℚ)} {limit : ℕ}

/-- A caller whose function is affine. -/
def Answers (a b : Fin n → ℚ) (caller : Caller (List ℚ) (Grid ℚ) Empty Empty (List ℚ)) : Prop :=
  ∀ number v, caller.value number (List.ofFn v) = .ok (.vector (List.ofFn (value a b v)))

/-- A trace that converged after three calls at most, at the start, at its value or at the fixed
point. -/
structure Solved (a b x : Fin n → ℚ) (trace : Trace (List ℚ) Empty (List ℚ) (Ending (List ℚ))) :
    Prop where
  calls : trace.evaluations.size ≤ 3
  converged : ∃ e, trace.outcome = .ok e ∧ e.converged = true ∧
    e.evaluations = trace.evaluations.size ∧
    (e.point = List.ofFn x ∨ e.point = List.ofFn (value a b x) ∨ e.point = List.ofFn (fixed a b))

section Runs
variable (hf : Answers a b caller)

include hf in
theorem Answers.reply_eq (number : ℕ) (v : Fin n → ℚ) :
    reply caller number (List.ofFn v) = .ok (List.ofFn (value a b v)) := by
  simp [reply, hf number v]

include hf in
theorem Answers.eq {number : ℕ} {v : Fin n → ℚ} {y : List ℚ}
    (hy : reply caller number (List.ofFn v) = .ok y) : y = List.ofFn (value a b v) := by
  rw [hf.reply_eq] at hy
  exact (Except.ok.inj hy).symm

variable (ha : ∀ i, a i ≠ 1) (hx : ∀ i, x i ≠ fixed a b i) (ht : ∀ t ∈ tol, t.Positive)

include hf ha ht in
theorem Answers.within_fixed {number : ℕ} {y : List ℚ}
    (hy : reply caller number (List.ofFn (fixed a b)) = .ok y) :
    Tolerance.within tol y (List.ofFn (fixed a b)) = true := by
  rw [hf.eq hy, stays ha]
  exact Tolerance.within_self ht _

include hf ha hx ht in
theorem steffensen_reached {k : ℕ} {p : List ℚ}
    (hr : Steffensen.Reached (reply caller) tol (List.ofFn x) k p) :
    p = List.ofFn x ∨ p = List.ofFn (fixed a b) := by
  induction hr with
  | start => exact .inl rfl
  | pass hr hy hyp hz hzy ih =>
    rcases ih with rfl | rfl
    · obtain rfl := hf.eq hy
      obtain rfl := hf.eq hz
      exact .inr (extrapolate_eq ha hx)
    · rw [hf.within_fixed ha ht hy] at hyp
      cases hyp

include hf ha hx ht in
theorem steffensen_divides {d : ℚ}
    (hd : Steffensen.Divides (reply caller) tol (List.ofFn x) limit d) : d ≠ 0 := by
  obtain ⟨hr, -, hy, hyp, hz, -, hmem⟩ := hd
  rcases steffensen_reached hf ha hx ht hr with rfl | rfl
  · obtain rfl := hf.eq hy
    obtain rfl := hf.eq hz
    rw [List.map_ofFn, Vec.sub_ofFn, Vec.add_ofFn, List.mem_ofFn] at hmem
    obtain ⟨i, rfl⟩ := hmem
    have hne := second_difference_ne_zero (ha i) (hx i)
    intro hzero
    apply hne
    simp only [Pi.add_apply, Pi.sub_apply, Function.comp_apply, value] at hzero
    linear_combination -hzero
  · rw [hf.within_fixed ha ht hy] at hyp
    cases hyp

include hf ha hx ht in
theorem wegstein_reached {k : ℕ} {p' y' p : List ℚ}
    (hr : Wegstein.Reached (reply caller) tol (List.ofFn x) k p' y' p) :
    (p' = List.ofFn x ∧ y' = List.ofFn (value a b x) ∧ p = List.ofFn (value a b x)) ∨
      p = List.ofFn (fixed a b) := by
  induction hr with
  | start hy =>
    obtain rfl := hf.eq hy
    exact .inl ⟨rfl, rfl, rfl⟩
  | pass hr hy hyp ih =>
    rcases ih with ⟨rfl, rfl, rfl⟩ | rfl
    · obtain rfl := hf.eq hy
      exact .inr (secants_eq ha hx)
    · rw [hf.within_fixed ha ht hy] at hyp
      cases hyp

include hf ha hx ht in
theorem wegstein_divides {d : ℚ}
    (hd : Wegstein.Divides (reply caller) tol (List.ofFn x) limit d) : d ≠ 0 := by
  obtain ⟨hr, -, hy, hyp, hmem⟩ := hd
  rcases wegstein_reached hf ha hx ht hr with ⟨rfl, rfl, rfl⟩ | rfl
  · obtain rfl := hf.eq hy
    rw [Vec.sub_ofFn, Vec.sub_ofFn, Vec.sub_ofFn, List.mem_ofFn] at hmem
    obtain ⟨i, rfl⟩ := hmem
    have hne := second_difference_ne_zero (ha i) (hx i)
    intro hzero
    apply hne
    simp only [Pi.sub_apply, value] at hzero
    linear_combination hzero
  · rw [hf.within_fixed ha ht hy] at hyp
    cases hyp

theorem propose_stays (p : Fin n → ℚ) (H : Matrix (Fin n) (Fin n) ℚ) :
    (Broyden.Estimate.exact p p H).propose = List.ofFn p := by
  rw [Broyden.propose_exact, sub_self, Matrix.mulVec_zero, zero_add]

include ht in
theorem within_propose (p : Fin n → ℚ) (H : Matrix (Fin n) (Fin n) ℚ) :
    Tolerance.within tol (Broyden.Estimate.exact p p H).propose
      (Broyden.Estimate.exact p p H).point = true := by
  rw [propose_stays]
  exact Tolerance.within_self ht _

include hf ha hx ht in
/-- After the plain steps, each stage of Broyden's method is at the fixed point. -/
theorem broyden_reached {calls : List (List ℚ)} {s : Broyden.Estimate ℚ}
    (hr : Broyden.Reached (reply caller) tol (List.ofFn x) calls s) :
    (calls.length = 2 ∧ value a b (value a b x) ≠ value a b x ∧
        s = .ofSteps (List.ofFn x) (List.ofFn (value a b x))
          (List.ofFn (value a b (value a b x)))) ∨
      (calls.length ≠ 2 ∧ ∃ H, s = .exact (fixed a b) (fixed a b) H) := by
  induction hr with
  | steps hy hyx hz hzy =>
    obtain rfl := hf.eq hy
    obtain rfl := hf.eq hz
    apply Or.inl
    refine ⟨rfl, fun heq => ?_, rfl⟩
    rw [heq, Tolerance.within_self ht] at hzy
    cases hzy
  | pass hr hpass hy ih =>
    rcases ih with ⟨hlen, -, rfl⟩ | ⟨hlen, H, rfl⟩
    · rw [propose_eq ha hx] at hy ⊢
      obtain rfl := hf.eq hy
      rw [stays ha, Broyden.ofSteps_exact, Broyden.observe_exact]
      exact .inr ⟨by simp [hlen], _, rfl⟩
    · cases (within_propose ht _ H).symm.trans (hpass.resolve_left hlen)

include hf ha hx ht in
theorem broyden_divides {d : ℚ}
    (hd : Broyden.Divides (reply caller) tol (List.ofFn x) limit d) : d ≠ 0 := by
  cases hd with
  | steps hy hyx hz hzy hmem =>
    obtain rfl := hf.eq hy
    obtain rfl := hf.eq hz
    exact ne_zero_of_mem_second_difference ha hx hmem
  | pass hr hl hpass hw =>
    rcases broyden_reached hf ha hx ht hr with ⟨hlen, hne, rfl⟩ | ⟨hlen, H, rfl⟩
    · rw [propose_eq ha hx] at hw ⊢
      obtain rfl := hf.eq hw
      rw [stays ha, Broyden.residualChange, Broyden.Estimate.ofSteps, Vec.sub_ofFn, Vec.sub_ofFn,
        Vec.sub_ofFn, Vec.dot_ofFn, sub_self, zero_sub, neg_dotProduct_neg, Ne,
        dotProduct_self_eq_zero, sub_eq_zero]
      exact hne.symm
    · cases (within_propose ht _ H).symm.trans (hpass.resolve_left hlen)

variable (hs : ∀ note, caller.shows note = .ok (shown note)) (hl : 2 ≤ limit)

section Steps
variable {evals : Array (List ℚ)} {notes : Array (Note (List ℚ))} {v : Fin n → ℚ} {rounds : ℕ}

include hs in
theorem solved_report {note : Note (List ℚ)} {next : Searching ℚ Empty Empty (List ℚ)}
    (h : ∀ notes, Solved a b x (runFrom caller evals #[] notes next)) :
    Solved a b x (runFrom caller evals #[] notes (.report note next)) := by
  rw [runFrom_report hs]
  apply h

include hs in
theorem solved_succeed (hsize : evals.size ≤ 3)
    (hv : v = x ∨ v = value a b x ∨ v = fixed a b) :
    Solved a b x (runFrom caller evals #[] notes (succeed (List.ofFn v) rounds evals.size)) := by
  obtain ⟨hevals, ho⟩ := runFrom_succeed hs evals (List.ofFn v) rounds evals.size #[] notes
  refine ⟨by rwa [hevals], _, ho, rfl, by rw [hevals], ?_⟩
  rcases hv with rfl | rfl | rfl
  · exact .inl rfl
  · exact .inr (.inl rfl)
  · exact .inr (.inr rfl)

include hs hf in
/-- A search ends at a called point where its value passes the test. -/
theorem solved_measure {next : List ℚ → Searching ℚ Empty Empty (List ℚ)} {count : ℕ}
    (hcount : count = evals.size + 1) (hsize : count ≤ 3)
    (hv : v = x ∨ v = value a b x ∨ v = fixed a b)
    (h : Tolerance.within tol (List.ofFn (value a b v)) (List.ofFn v) = false →
      Solved a b x (runFrom caller (evals.push (List.ofFn v)) #[] notes
        (next (List.ofFn (value a b v))))) :
    Solved a b x (runFrom caller evals #[] notes (measure (List.ofFn v) fun y =>
      if Tolerance.within tol y (List.ofFn v) then succeed (List.ofFn v) rounds count
      else next y)) := by
  rw [runFrom_measure_ok (hf.reply_eq ..)]
  cases hpass : Tolerance.within tol (List.ofFn (value a b v)) (List.ofFn v) with
  | true =>
    have hpush : count = (evals.push (List.ofFn v)).size := by rw [hcount, Array.size_push]
    rw [if_pos rfl, hpush]
    exact solved_succeed hs (hpush ▸ hsize) hv
  | false => exact h hpass

include hs hf ha ht in
theorem solved_measure_fixed {next : List ℚ → Searching ℚ Empty Empty (List ℚ)} {count : ℕ}
    (hcount : count = evals.size + 1) (hsize : count ≤ 3) :
    Solved a b x (runFrom caller evals #[] notes (measure (List.ofFn (fixed a b)) fun y =>
      if Tolerance.within tol y (List.ofFn (fixed a b)) then
        succeed (List.ofFn (fixed a b)) rounds count
      else next y)) := by
  refine solved_measure hf hs hcount hsize (.inr (.inr rfl)) fun hpass => ?_
  rw [stays ha, Tolerance.within_self ht] at hpass
  cases hpass

end Steps

include hs hf ha hx ht hl in
theorem steffensen_solved :
    Solved a b x ((Steffensen.search limit tol (List.ofFn x)).run caller) := by
  obtain ⟨left, rfl⟩ := Nat.exists_eq_add_of_le' hl
  refine solved_report hs fun _ => solved_report hs fun _ => ?_
  refine solved_measure hf hs rfl (by decide) (.inl rfl) fun _ => ?_
  refine solved_measure hf hs rfl (by decide) (.inr (.inl rfl)) fun _ => ?_
  rw [extrapolate_eq ha hx]
  exact solved_report hs fun _ => solved_measure_fixed hf ha ht hs rfl (by decide)

include hs hf ha hx ht hl in
theorem wegstein_solved :
    Solved a b x ((Wegstein.search limit tol (List.ofFn x)).run caller) := by
  obtain ⟨left, rfl⟩ := Nat.exists_eq_add_of_le' hl
  refine solved_report hs fun _ => ?_
  refine solved_measure hf hs rfl (by decide) (.inl rfl) fun _ => solved_report hs fun _ => ?_
  refine solved_measure hf hs rfl (by decide) (.inr (.inl rfl)) fun _ => ?_
  rw [secants_eq ha hx]
  exact solved_report hs fun _ => solved_measure_fixed hf ha ht hs rfl (by decide)

include hs hf ha hx ht hl in
theorem broyden_solved :
    Solved a b x ((Broyden.search limit tol (List.ofFn x)).run caller) := by
  obtain ⟨left, rfl⟩ := Nat.exists_eq_add_of_le' hl
  refine solved_report hs fun _ => ?_
  refine solved_measure hf hs rfl (by decide) (.inl rfl) fun _ => ?_
  refine solved_measure hf hs rfl (by decide) (.inr (.inl rfl)) fun _ => ?_
  refine solved_report hs fun _ => ?_
  rw [propose_eq ha hx, show left + 2 - 1 = left + 1 from rfl, Broyden.iterate,
    runFrom_measure_ok (hf.reply_eq ..), stays ha, Broyden.ofSteps_exact, Broyden.observe_exact]
  refine solved_report hs fun _ => ?_
  rw [propose_stays, if_pos (Tolerance.within_self ht _)]
  exact solved_succeed hs (Nat.le_refl 3) (.inr (.inr rfl))

end Runs

/-- Where no slope is one and the start differs from the fixed point in every component, no fixed
point method divides by zero, and each converges after three calls at most: at the start, at its
value or exactly at the fixed point. -/
theorem solved_exactly (ha : ∀ i, a i ≠ 1) (hx : ∀ i, x i ≠ fixed a b i)
    (ht : ∀ t ∈ tol, t.Positive) (hl : 2 ≤ limit)
    (hs : ∀ note, caller.shows note = .ok (shown note)) (hf : Answers a b caller) :
    ((∀ d, Steffensen.Divides (reply caller) tol (List.ofFn x) limit d → d ≠ 0) ∧
      Solved a b x ((Steffensen.search limit tol (List.ofFn x)).run caller)) ∧
    ((∀ d, Wegstein.Divides (reply caller) tol (List.ofFn x) limit d → d ≠ 0) ∧
      Solved a b x ((Wegstein.search limit tol (List.ofFn x)).run caller)) ∧
    (∀ d, Broyden.Divides (reply caller) tol (List.ofFn x) limit d → d ≠ 0) ∧
      Solved a b x ((Broyden.search limit tol (List.ofFn x)).run caller) := by
  refine ⟨⟨fun d => steffensen_divides hf ha hx ht, ?_⟩,
    ⟨fun d => wegstein_divides hf ha hx ht, ?_⟩, fun d => broyden_divides hf ha hx ht, ?_⟩
  · exact steffensen_solved hf ha hx ht hs hl
  · exact wegstein_solved hf ha hx ht hs hl
  · exact broyden_solved hf ha hx ht hs hl

def calls (a b : Fin n → ℚ) : Caller (List ℚ) (Grid ℚ) Empty Empty (List ℚ) where
  value _ v :=
    .ok (.vector (List.zipWith (fun c v => c.1 * v + c.2) (List.ofFn fun i => (a i, b i)) v))
  slope _ := Empty.elim
  shows _ := .ok false

theorem answers_calls (a b : Fin n → ℚ) : Answers a b (calls a b) := by
  intro number v
  simp only [calls, zipWith_ofFn]
  rfl

def closely : List (Tolerance ℚ) := [⟨1 / 100, 0⟩, ⟨1 / 100, 1 / 100⟩]

theorem positive_closely : ∀ t ∈ closely, t.Positive := by
  intro t ht
  fin_cases ht
  · exact ⟨by decide +kernel, le_rfl⟩
  · exact ⟨by decide +kernel, by decide +kernel⟩

/-- A half of the first number and one, and three for the second one. -/
theorem solved_exactly_halfAndThree :
    Solved ![1 / 2, 0] ![1, 3] ![0, 1]
        ((Steffensen.search 2 closely (List.ofFn ![0, 1])).run (calls ![1 / 2, 0] ![1, 3])) ∧
      Solved ![1 / 2, 0] ![1, 3] ![0, 1]
        ((Wegstein.search 2 closely (List.ofFn ![0, 1])).run (calls ![1 / 2, 0] ![1, 3])) ∧
      Solved ![1 / 2, 0] ![1, 3] ![0, 1]
        ((Broyden.search 2 closely (List.ofFn ![0, 1])).run (calls ![1 / 2, 0] ![1, 3])) := by
  have hs : ∀ note, (calls ![1 / 2, 0] ![1, 3]).shows note = .ok false := fun _ => rfl
  obtain ⟨⟨-, hsteffensen⟩, ⟨-, hwegstein⟩, -, hbroyden⟩ :=
    solved_exactly (x := ![0, 1]) (by decide +kernel) (by decide +kernel) positive_closely
      (le_refl 2) hs (answers_calls ![1 / 2, 0] ![1, 3])
  exact ⟨hsteffensen, hwegstein, hbroyden⟩

example : ((Broyden.search 2 closely [0, 1]).run (calls ![1 / 2, 0] ![1, 3])).outcome.toOption.map
    Ending.point = some [2, 3] := by
  decide +kernel

end Affine
end RootFinding
