import Mathlib.Algebra.Module.Torsion.Pi
import RootFinding.Proofs.FixedPoint.Exact
import RootFinding.Proofs.FixedPoint.Stages

/-!
# Zero steps of Broyden's method

With a function that does not mind how often it was called, and nothing divided by zero, a step is
zero at a fixed point, and past the second call where the residual changed at right angles to what
it was. A component that stands still in the first plain step has a row of zeros in the estimate and
is frozen. Where none does, the estimate keeps its rank and no other step is zero.
-/
namespace RootFinding.Broyden
open Iteration Search Matrix
variable {n : ℕ}

/-- The answers of a function of vectors that does not mind how often it was called. -/
def plain (f : List ℚ → List ℚ) (_ : Nat) (v : List ℚ) : Except Failure (List ℚ) := .ok (f v)

/-- A stage whose step is zero in each component. -/
def Estimate.Stands (s : Estimate ℚ) : Prop := ∀ a ∈ s.step, a = 0

/-- The residual changes from `q` to `p` at right angles to the residual at `q`. -/
def Orthogonal (f : List ℚ → List ℚ) (q p : List ℚ) : Prop :=
  Vec.dot (Vec.sub (Vec.sub p (f p)) (Vec.sub q (f q))) (Vec.sub q (f q)) = 0

section Stages
variable {f : List ℚ → List ℚ} {F : (Fin n → ℚ) → Fin n → ℚ}
  (hF : ∀ v, f (List.ofFn v) = List.ofFn (F v)) {tol : List (Tolerance ℚ)} {x : Fin n → ℚ}
  {limit : ℕ} {calls : List (List ℚ)} {s : Estimate ℚ}

theorem stands_exact {p q : Fin n → ℚ} {H : Matrix (Fin n) (Fin n) ℚ} :
    (Estimate.exact p q H).Stands ↔ H *ᵥ (p - q) = 0 := by
  rw [Estimate.Stands, step_exact, List.forall_mem_ofFn_iff, ← neg_sub q p, mulVec_neg, neg_eq_zero]
  exact funext_iff.symm

include hF in
theorem orthogonal_ofFn {p q : Fin n → ℚ} : Orthogonal f (List.ofFn q) (List.ofFn p) ↔
    (p - F p - (q - F q)) ⬝ᵥ (q - F q) = 0 := by
  simp only [Orthogonal, hF, Vec.sub_ofFn, Vec.dot_ofFn]

theorem propose_exact_residual (p q : Fin n → ℚ) (H : Matrix (Fin n) (Fin n) ℚ) :
    (Estimate.exact p q H).propose = List.ofFn (p - H *ᵥ (p - q)) := by
  rw [propose_exact, ← neg_sub p q, mulVec_neg, neg_add_eq_sub]

include hF in
theorem observe_plain {p p' : Fin n → ℚ} {H : Matrix (Fin n) (Fin n) ℚ}
    (hp : p' = p - H *ᵥ (p - F p)) :
    (Estimate.exact p (F p) H).observe (List.ofFn p') (f (List.ofFn p')) =
      .exact p' (F p') (corrected H (-(H *ᵥ (p - F p))) (p' - F p' - (p - F p))) := by
  have hstep : p' - p = -(H *ᵥ (p - F p)) := by
    rw [hp, sub_sub_cancel_left]
  rw [hF, observe_exact, hstep]

include hF in
theorem Reached.exists_exact (h : Reached (plain f) tol (List.ofFn x) calls s) :
    ∃ p H, s = .exact p (F p) H := by
  induction h with
  | steps hy hyx hz hzy =>
    cases hy
    cases hz
    rw [hF, hF, ofSteps_exact]
    exact ⟨_, _, rfl⟩
  | pass hr ht hy ih =>
    obtain ⟨p, H, rfl⟩ := ih
    cases hy
    rw [propose_exact_residual, observe_plain hF rfl]
    exact ⟨_, _, rfl⟩

variable (hdiv : ∀ d, Divides (plain f) tol (List.ofFn x) limit d → d ≠ 0)

include hF hdiv in
/-- The change of the residual over a call that the search makes is not zero. -/
theorem change_ne_zero {p p' : Fin n → ℚ} {H : Matrix (Fin n) (Fin n) ℚ}
    (hr : Reached (plain f) tol (List.ofFn x) calls (.exact p (F p) H))
    (hl : calls.length ≤ limit) (hp : p' = p - H *ᵥ (p - F p))
    (ht : calls.length = 2 ∨ Tolerance.within tol (Estimate.exact p (F p) H).propose
      (Estimate.exact p (F p) H).point = false) :
    (p' - F p' - (p - F p)) ⬝ᵥ (p' - F p' - (p - F p)) ≠ 0 := by
  have hd := hdiv _ (.pass hr hl ht rfl)
  rw [propose_exact_residual, ← hp, hF] at hd
  simpa only [residualChange, Estimate.exact, Vec.sub_ofFn, Vec.dot_ofFn] using hd

include hF hdiv in
/-- The slopes of the plain steps are not zero where every component moves. -/
theorem slopes_ne_zero (hmoved : ∀ i, F x i ≠ x i)
    (hyx : Tolerance.within tol (f (List.ofFn x)) (List.ofFn x) = false)
    (hzy : Tolerance.within tol (f (f (List.ofFn x))) (f (List.ofFn x)) = false) (i : Fin n) :
    ((F x - x) / ((fun i => 2 * F x i) - x - F (F x))) i ≠ 0 := by
  have hd : ((fun i => 2 * F x i) - x - F (F x)) i ≠ 0 := by
    refine hdiv _ (.steps rfl hyx rfl hzy ?_)
    rw [hF, hF, List.map_ofFn, Vec.sub_ofFn, Vec.sub_ofFn, List.mem_ofFn]
    exact ⟨i, rfl⟩
  exact div_ne_zero (sub_ne_zero.2 (hmoved i)) hd

include hF hdiv in
/-- Where every component moves in the first plain step, the estimate has full rank at each stage
from which the search goes on. -/
theorem Reached.regular (hmoved : ∀ i, F x i ≠ x i)
    (h : Reached (plain f) tol (List.ofFn x) calls s) (hl : calls.length ≤ limit)
    (ht : calls.length = 2 ∨ Tolerance.within tol s.propose s.point = false) :
    ∃ p H, s = .exact p (F p) H ∧ ∀ v, H *ᵥ v = 0 → v = 0 := by
  induction h with
  | steps hy hyx hz hzy =>
    cases hy
    cases hz
    have hd := slopes_ne_zero hF hdiv hmoved hyx hzy
    rw [hF, hF, ofSteps_exact]
    exact ⟨_, _, rfl, fun v hv => diagonal_injective hd hv⟩
  | @pass calls s y hr ht' hy ih =>
    have hnext := hr.pass ht' hy
    rw [List.length_append, List.length_singleton] at hl
    obtain ⟨p, H, rfl, hH⟩ := ih (by omega) ht'
    cases hy
    obtain ⟨p', hp⟩ : ∃ p', p' = p - H *ᵥ (p - F p) := ⟨_, rfl⟩
    have hd := change_ne_zero hF hdiv hr (by omega) hp ht'
    rw [propose_exact_residual, ← hp, observe_plain hF hp] at hnext ht ⊢
    refine ⟨p', _, rfl, fun v hv => corrected_injective hH ?_ hd hv⟩
    intro ho
    have hstay : p' = p' -
        corrected H (-(H *ᵥ (p - F p))) (p' - F p' - (p - F p)) *ᵥ (p' - F p') := by
      rw [corrected_mulVec_self H hd, ho, neg_zero, zero_div, zero_smul, sub_zero]
    have hd' := change_ne_zero hF hdiv hnext (by simpa using hl) hstay ht
    rw [sub_self, dotProduct_zero] at hd'
    exact hd' rfl

include hF in
/-- A component that stands still in the first plain step never moves. -/
theorem Reached.frozen {j : Fin n} (hj : F x j = x j)
    (h : Reached (plain f) tol (List.ofFn x) calls s) :
    ∃ p H, s = .exact p (F p) H ∧ p j = x j ∧ ∀ v, (H *ᵥ v) j = 0 := by
  induction h with
  | steps hy hyx hz hzy =>
    cases hy
    cases hz
    rw [hF, hF, ofSteps_exact]
    refine ⟨_, _, rfl, hj, fun v => ?_⟩
    simp [mulVec_diagonal, hj]
  | pass hr ht hy ih =>
    obtain ⟨p, H, rfl, hp, hH⟩ := ih
    cases hy
    rw [propose_exact_residual, observe_plain hF rfl]
    refine ⟨_, _, rfl, ?_, fun v => ?_⟩
    · rw [Pi.sub_apply, hH, sub_zero, hp]
    · rw [corrected_mulVec, hH]

include hF in
theorem Reached.stands_of_fixed (h : Reached (plain f) tol (List.ofFn x) calls s)
    (hfix : f s.point = s.point) : s.Stands := by
  obtain ⟨p, H, rfl⟩ := h.exists_exact hF
  change f (List.ofFn p) = List.ofFn p at hfix
  rw [hF, List.ofFn_inj] at hfix
  rw [stands_exact, hfix, sub_self, mulVec_zero]

include hF hdiv in
/-- The step after a call that the search makes is zero where the residual changed at right angles
to what it was. -/
theorem Reached.stands_of_orthogonal (h : Reached (plain f) tol (List.ofFn x) calls s)
    (hl : calls.length ≤ limit)
    (ht : calls.length = 2 ∨ Tolerance.within tol s.propose s.point = false)
    (ho : Orthogonal f s.point s.propose) : (s.observe s.propose (f s.propose)).Stands := by
  obtain ⟨p, H, rfl⟩ := h.exists_exact hF
  obtain ⟨p', hp⟩ : ∃ p', p' = p - H *ᵥ (p - F p) := ⟨_, rfl⟩
  have hd := change_ne_zero hF hdiv h hl hp ht
  rw [propose_exact_residual, ← hp] at ho ⊢
  rw [observe_plain hF hp, stands_exact, corrected_mulVec_self H hd,
    (orthogonal_ofFn hF).1 ho, neg_zero, zero_div, zero_smul]

include hF hdiv in
/-- Where every component moves in the first plain step, the step after the second one is zero only
at a fixed point. -/
theorem fixed_of_stands (hmoved : ∀ i, F x i ≠ x i)
    (hyx : Tolerance.within tol (f (List.ofFn x)) (List.ofFn x) = false)
    (hzy : Tolerance.within tol (f (f (List.ofFn x))) (f (List.ofFn x)) = false)
    (hs : (Estimate.ofSteps (List.ofFn x) (f (List.ofFn x)) (f (f (List.ofFn x)))).Stands) :
    f (f (List.ofFn x)) = f (List.ofFn x) := by
  have hd := slopes_ne_zero hF hdiv hmoved hyx hzy
  rw [hF, hF, ofSteps_exact, stands_exact] at hs
  rw [hF, hF, ← sub_eq_zero.1 (diagonal_injective hd hs)]

include hF hdiv in
/-- Where every component moves in the first plain step, the step after a later call is zero only at
a fixed point or where the residual changed at right angles to what it was. -/
theorem Reached.orthogonal_of_stands (hmoved : ∀ i, F x i ≠ x i)
    (h : Reached (plain f) tol (List.ofFn x) calls s) (hl : calls.length ≤ limit)
    (ht : calls.length = 2 ∨ Tolerance.within tol s.propose s.point = false)
    (hs : (s.observe s.propose (f s.propose)).Stands) :
    f s.propose = s.propose ∨ Orthogonal f s.point s.propose := by
  obtain ⟨p, H, rfl, hH⟩ := h.regular hF hdiv hmoved hl ht
  obtain ⟨p', hp⟩ : ∃ p', p' = p - H *ᵥ (p - F p) := ⟨_, rfl⟩
  have hd := change_ne_zero hF hdiv h hl hp ht
  rw [propose_exact_residual, ← hp] at hs ⊢
  rw [observe_plain hF hp, stands_exact, corrected_mulVec_self H hd] at hs
  rcases smul_eq_zero.1 hs with hc | hg
  · right
    refine (orthogonal_ofFn hF).2 (neg_eq_zero.1 ?_)
    exact (div_eq_zero_iff.1 hc).resolve_right hd
  · left
    rw [hF, ← sub_eq_zero.1 (hH _ hg)]

end Stages

/-- A component that stands still in the first plain step. -/
def Frozen (f : List ℚ → List ℚ) (x : List ℚ) (j : ℕ) (a : ℚ) : Prop :=
  x[j]? = some a ∧ (f x)[j]? = some a

variable {f : List ℚ → List ℚ} (hf : ∀ v, (f v).length = v.length) {tol : List (Tolerance ℚ)}
  {x : List ℚ} {limit : ℕ} {calls : List (List ℚ)} {s : Estimate ℚ}

include hf in
theorem exists_family (n : ℕ) :
    ∃ F : (Fin n → ℚ) → Fin n → ℚ, ∀ v, f (List.ofFn v) = List.ofFn (F v) := by
  have h : ∀ v : Fin n → ℚ, ∃ w : Fin n → ℚ, f (List.ofFn v) = List.ofFn w := fun v =>
    exists_eq_ofFn (by rw [hf, List.length_ofFn])
  choose F hF using h
  exact ⟨F, hF⟩

include hf in
theorem Reached.getElem?_of_frozen (h : Reached (plain f) tol x calls s) {j : ℕ} {a : ℚ}
    (hj : Frozen f x j a) : s.point[j]? = some a := by
  obtain ⟨hx, hfx⟩ := hj
  generalize hn : x.length = n
  obtain ⟨u, rfl⟩ := exists_eq_ofFn hn
  obtain ⟨F, hF⟩ := exists_family hf n
  rw [hF] at hfx
  simp only [List.getElem?_ofFn, Option.dite_none_right_eq_some, Option.some.injEq] at hx hfx
  obtain ⟨hlt, rfl⟩ := hx
  obtain ⟨_, hfu⟩ := hfx
  obtain ⟨p, H, rfl, hp, -⟩ := h.frozen hF hfu
  simp [Estimate.exact, hlt, hp]

include hf in
theorem Reached.stands_at_fixed (h : Reached (plain f) tol x calls s)
    (hfix : f s.point = s.point) : s.Stands := by
  generalize hn : x.length = n
  obtain ⟨u, rfl⟩ := exists_eq_ofFn hn
  obtain ⟨F, hF⟩ := exists_family hf n
  exact h.stands_of_fixed hF hfix

/-- A start of which no component is frozen moves in each of them. -/
theorem forall_moved {n : ℕ} {F : (Fin n → ℚ) → Fin n → ℚ} {u : Fin n → ℚ}
    (hF : ∀ v, f (List.ofFn v) = List.ofFn (F v))
    (h : ¬∃ j a, Frozen f (List.ofFn u) j a) (i : Fin n) : F u i ≠ u i := by
  intro hi
  refine h ⟨i, u i, ?_, ?_⟩
  · simp
  · rw [hF]
    simp [hi]

def plainCaller (f : List ℚ → List ℚ) (shown : Note (List ℚ) → Bool) :
    Caller (List ℚ) (Grid ℚ) Empty Empty (List ℚ) where
  value _ v := .ok (.vector (f v))
  slope _ := Empty.elim
  shows note := .ok (shown note)

include hf in
theorem reply_plainCaller (shown : Note (List ℚ) → Bool) :
    reply (plainCaller f shown) = plain f := by
  funext number v
  simp [reply, plainCaller, plain, hf]

include hf in
theorem exists_outcome {shown : Note (List ℚ) → Bool}
    {trace : Trace (List ℚ) Empty (List ℚ) (Ending (List ℚ))} (hl : 1 ≤ limit)
    (hrun : (search limit tol x).run (plainCaller f shown) = trace) :
    ∃ e, trace.outcome = .ok e := by
  rcases concluded_search hl hrun with ⟨-, -, -, ho⟩ | ⟨-, -, -, -, -, ho⟩ | ⟨-, -, -, ho⟩ |
    ⟨⟨number, z, hz⟩ | ⟨note, hnote⟩, -⟩
  · exact ⟨_, ho⟩
  · exact ⟨_, ho⟩
  · exact ⟨_, ho⟩
  · rw [reply_plainCaller hf] at hz
    cases hz
  · cases hnote

include hf in
/-- The zero steps at a stage: at a fixed point, where a component is frozen, or where the residual
changed at right angles to what it was. -/
theorem Reached.stands_cases (hdiv : ∀ d, Divides (plain f) tol x limit d → d ≠ 0)
    (h : Reached (plain f) tol x calls s) {i : ℕ} (hlen : calls.length = i + 2)
    (hl : i + 1 ≤ limit) :
    (∀ q, i ≠ 0 → calls[i]? = some q → Orthogonal f q s.point → s.Stands) ∧
      (s.Stands → f s.point = s.point ∨ (∃ j a, Frozen f x j a) ∨
        ∃ q, i ≠ 0 ∧ calls[i]? = some q ∧ Orthogonal f q s.point) := by
  generalize hn : x.length = n
  obtain ⟨u, rfl⟩ := exists_eq_ofFn hn
  obtain ⟨F, hF⟩ := exists_family hf n
  cases h with
  | steps hy hyx hz hzy =>
    cases hy
    cases hz
    obtain rfl : i = 0 := by simpa using hlen.symm
    refine ⟨fun q hi => (hi rfl).elim, fun hs => ?_⟩
    by_cases hfrozen : ∃ j a, Frozen f (List.ofFn u) j a
    · exact .inr (.inl hfrozen)
    · exact .inl (fixed_of_stands hF hdiv (forall_moved hF hfrozen) hyx hzy hs)
  | @pass calls s y hr ht hy =>
    cases hy
    have hmin := hr.two_le_length
    have hcalls : calls.length = i + 1 := by simpa using hlen
    have hprevious : (calls ++ [s.propose])[i]? = some s.point := by
      rw [List.getElem?_append_left (by omega), ← hr.getLast?, List.getLast?_eq_getElem?, hcalls]
      rfl
    refine ⟨fun q hi hq ho => ?_, fun hs => ?_⟩
    · cases hprevious.symm.trans hq
      exact hr.stands_of_orthogonal hF hdiv (by omega) ht ho
    · by_cases hfrozen : ∃ j a, Frozen f (List.ofFn u) j a
      · exact .inr (.inl hfrozen)
      · rcases hr.orthogonal_of_stands hF hdiv (forall_moved hF hfrozen) (by omega) ht hs with
          hfix | ho
        · exact .inl hfix
        · exact .inr (.inr ⟨s.point, by omega, hprevious, ho⟩)

include hf in
/-- A search with a plain function gives an outcome, and from each call at a point `p` after the
first it takes a step unless it ends there at once. The step is zero at a fixed point, and past the
second call where the residual changed at right angles to what it was at the call before. It is zero
nowhere else if no component stands still in the first plain step; one that does is frozen. -/
theorem zero_step_cases {shown : Note (List ℚ) → Bool}
    {trace : Trace (List ℚ) Empty (List ℚ) (Ending (List ℚ))} (hl : 1 ≤ limit)
    (hrun : (search limit tol x).run (plainCaller f shown) = trace)
    (hdiv : ∀ d, Divides (plain f) tol x limit d → d ≠ 0) :
    (∃ e, trace.outcome = .ok e) ∧
      ∀ i p, trace.evaluations[i + 1]? = some p → trace.outcome ≠ .ok ⟨p, true, 0, 2⟩ →
        ∃ s, Reached (plain f) tol x (trace.evaluations.toList.take (i + 2)) s ∧
          s.point = p ∧ s.value = f p ∧
          (f p = p → s.Stands) ∧
          (∀ q, i ≠ 0 → trace.evaluations[i]? = some q → Orthogonal f q p → s.Stands) ∧
          (s.Stands → f p = p ∨ (∃ j a, Frozen f x j a) ∨
            ∃ q, i ≠ 0 ∧ trace.evaluations[i]? = some q ∧ Orthogonal f q p) ∧
          ∀ j a, Frozen f x j a → p[j]? = some a := by
  obtain ⟨e, ho⟩ := exists_outcome hf hl hrun
  refine ⟨⟨e, ho⟩, fun i p hp hstep => ?_⟩
  obtain ⟨hle, s, hr, rfl⟩ := exists_stage hl hrun ho hp hstep
  rw [reply_plainCaller hf] at hr
  have hvalue : s.value = f s.point := (Except.ok.inj hr.answer_eq).symm
  have hlt : i + 1 < trace.evaluations.size := (Array.getElem?_eq_some_iff.1 hp).1
  have hlen : (trace.evaluations.toList.take (i + 2)).length = i + 2 := by
    rw [List.length_take, Array.length_toList]
    omega
  have hget : (trace.evaluations.toList.take (i + 2))[i]? = trace.evaluations[i]? := by
    rw [List.getElem?_take_of_lt (by omega), Array.getElem?_toList]
  obtain ⟨hzero, hcases⟩ := hr.stands_cases hf hdiv hlen hle
  rw [hget] at hzero hcases
  exact ⟨s, hr, rfl, hvalue, hr.stands_at_fixed hf, hzero, hcases,
    fun j a hj => hr.getElem?_of_frozen hf hj⟩

/-- A map of the plane, which leaves vectors of any other length as they are. -/
def plane (g h : ℚ → ℚ → ℚ) : List ℚ → List ℚ
  | [a, b] => [g a b, h a b]
  | v => v

theorem length_plane (g h : ℚ → ℚ → ℚ) (v : List ℚ) : (plane g h v).length = v.length := by
  unfold plane
  split <;> rfl

/-- A map under which both components move at first, and the residual then turns at right angles. -/
def turning : List ℚ → List ℚ := plane (fun a b => 1 + a - 2 * b) fun a b => 1 + 2 * a - 2 * b

/-- A map whose first component stands still where the sum of them is one more than it. -/
def standing : List ℚ → List ℚ := plane (fun a b => a + b - 1) fun _ b => b / 2

def planeTolerance : List (Tolerance ℚ) := [⟨1 / 1000000000, 0⟩, ⟨1 / 1000000000, 0⟩]

def planeRun (f : List ℚ → List ℚ) (x : List ℚ) :
    Trace (List ℚ) Empty (List ℚ) (Ending (List ℚ)) :=
  (search 2 planeTolerance x).run (plainCaller f fun _ => false)

def second (f : List ℚ → List ℚ) (x : List ℚ) : Estimate ℚ := .ofSteps x (f x) (f (f x))

def secondChange (f : List ℚ → List ℚ) (x : List ℚ) : List ℚ :=
  residualChange (second f x) (second f x).propose (f (second f x).propose)

theorem divides_ne_zero
    (hsteps : ∀ d ∈ Vec.sub (Vec.sub ((f x).map (2 * ·)) x) (f (f x)), d ≠ 0)
    (hpass : Vec.dot (secondChange f x) (secondChange f x) ≠ 0) (d : ℚ)
    (h : Divides (plain f) tol x 2 d) : d ≠ 0 := by
  obtain ⟨y, z, hy, hz, hd⟩ := h.of_two
  cases hy
  cases hz
  rcases hd with hd | ⟨w, hw, rfl⟩
  · exact hsteps d hd
  · cases hw
    exact hpass

theorem zero_step_cases_turning :
    ∃ s, Reached (plain turning) planeTolerance [0, 0] [[0, 0], [1, 1], [1 / 2, 1]] s ∧
      s.point = [1 / 2, 1] ∧ s.Stands := by
  have hcalls : (planeRun turning [0, 0]).evaluations = #[[0, 0], [1, 1], [1 / 2, 1]] := by
    decide +kernel
  have hrounds : (planeRun turning [0, 0]).outcome.toOption.map Ending.iterations = some 2 := by
    decide +kernel
  have hstep : (planeRun turning [0, 0]).outcome ≠ .ok ⟨[1 / 2, 1], true, 0, 2⟩ := by
    intro ho
    rw [ho] at hrounds
    cases hrounds
  have ho : Orthogonal turning [1, 1] [1 / 2, 1] := by
    unfold Orthogonal
    decide +kernel
  obtain ⟨-, hcases⟩ := zero_step_cases (length_plane _ _) (by decide)
    (rfl : planeRun turning [0, 0] = _) (divides_ne_zero (by decide +kernel) (by decide +kernel))
  obtain ⟨s, hr, hp, -, -, hzero, -⟩ := hcases 1 [1 / 2, 1] (by rw [hcalls]; rfl) hstep
  rw [hcalls] at hr hzero
  exact ⟨s, hr, hp, hzero [1, 1] (by decide) rfl ho⟩

/-- A search of two iterations that divides by nothing that is zero, and whose last call is at a
point from which it takes a zero step, though that is no fixed point. -/
def StandsOff (f : List ℚ → List ℚ) (x : List ℚ) : Prop :=
  (∀ d, Divides (plain f) planeTolerance x 2 d → d ≠ 0) ∧
    ∃ s, Reached (plain f) planeTolerance x (planeRun f x).evaluations.toList s ∧ s.Stands ∧
      f s.point ≠ s.point

def third (f : List ℚ → List ℚ) (x : List ℚ) : Estimate ℚ :=
  (second f x).observe (second f x).propose (f (second f x).propose)

theorem reached_third (hyx : Tolerance.within tol (f x) x = false)
    (hzy : Tolerance.within tol (f (f x)) (f x) = false) :
    Reached (plain f) tol x [x, f x, (third f x).point] (third f x) :=
  .pass (.steps rfl hyx rfl hzy) (.inl rfl) rfl

/-- The residual turns at right angles after both components moved, or one component is frozen. -/
theorem zero_step_off_fixed : StandsOff turning [0, 0] ∧ StandsOff standing [0, 1] := by
  refine ⟨⟨divides_ne_zero (by decide +kernel) (by decide +kernel),
    third turning [0, 0], ?_, ?_, ?_⟩,
    divides_ne_zero (by decide +kernel) (by decide +kernel), third standing [0, 1], ?_, ?_, ?_⟩
  · have hcalls : (planeRun turning [0, 0]).evaluations.toList =
        [[0, 0], turning [0, 0], (third turning [0, 0]).point] := by decide +kernel
    rw [hcalls]
    exact reached_third (by decide +kernel) (by decide +kernel)
  · unfold Estimate.Stands
    decide +kernel
  · decide +kernel
  · have hcalls : (planeRun standing [0, 1]).evaluations.toList =
        [[0, 1], standing [0, 1], (third standing [0, 1]).point] := by decide +kernel
    rw [hcalls]
    exact reached_third (by decide +kernel) (by decide +kernel)
  · unfold Estimate.Stands
    decide +kernel
  · decide +kernel

end RootFinding.Broyden
