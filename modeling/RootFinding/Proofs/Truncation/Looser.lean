import RootFinding.Proofs.Bracketing.Shrinking
import RootFinding.Proofs.Truncation.Methods

/-!
# Looser tolerances

Over exact fractions, a test that is passed is passed under larger tolerances too. A search under
larger tolerances therefore makes no further calls, and converges where the other one does.
-/
namespace RootFinding
open Search Iteration

theorem all_of_forall₂ {below below' : List Bool}
    (h : List.Forall₂ (fun b b' => b = true → b' = true) below below')
    (hall : below.all id = true) : below'.all id = true := by
  induction h with
  | nil => rfl
  | cons hb _ ih =>
    rw [List.all_cons, Bool.and_eq_true] at hall ⊢
    exact ⟨hb hall.1, ih hall.2⟩

theorem below_of_le (f t t' : ℚ) (h : t ≤ t') (hf : decide (Scalar.abs f < t) = true) :
    decide (Scalar.abs f < t') = true := by
  rw [decide_eq_true_eq] at hf ⊢
  exact lt_of_lt_of_le hf h

theorem Newton.isRoot_of_le {tol tol' : List ℚ} (h : List.Forall₂ (· ≤ ·) tol tol') (fx : List ℚ)
    (hroot : isRoot tol fx = true) : isRoot tol' fx = true := by
  refine all_of_forall₂ (Grid.forall₂_zipWith (R := Eq) (S := (· ≤ ·)) ?_ ?_ h) hroot
  · rintro f _ t t' rfl ht
    exact below_of_le f t t' ht
  · rw [List.forall₂_eq_eq_eq]

theorem Sand.test_of_le {tol tol' : Grid ℚ} (h : Grid.Related (· ≤ ·) tol tol')
    (p : Grid ℚ × Grid ℚ) (htest : test tol p.1 p.2 = true) : test tol' p.1 p.2 = true := by
  rw [test_iff] at htest ⊢
  refine ⟨htest.1, ?_⟩
  have hroots := corresponds_isRoot (T := fun b b' => b = true → b' = true) h below_of_le p.2
  rw [htest.2] at hroots
  generalize isRoot tol' p.2 = result at hroots
  cases hroots with
  | ok h =>
    obtain ⟨below, below', hbelow, hpassed, rfl⟩ := h
    rw [all_of_forall₂ hbelow hpassed.symm]

namespace Tolerance

/-- A tolerance that is at least as large in both parts. -/
def Looser (tol tol' : Tolerance ℚ) : Prop :=
  tol.absolute ≤ tol'.absolute ∧ tol.relative ≤ tol'.relative

theorem maximum_abs_nonneg (x y : ℚ) : 0 ≤ Scalar.maximum (Scalar.abs x) (Scalar.abs y) := by
  have habs : ∀ z : ℚ, 0 ≤ Scalar.abs z := by
    intro z
    rw [Brent.abs_eq]
    exact abs_nonneg z
  unfold Scalar.maximum
  split
  · exact habs x
  · exact habs y

theorem close_of_looser {tol tol' : Tolerance ℚ} (h : tol.Looser tol') {x y : ℚ}
    (hclose : tol.close x y = true) : tol'.close x y = true := by
  unfold close bound at hclose ⊢
  rw [decide_eq_true_eq] at hclose ⊢
  have hrelative := mul_le_mul_of_nonneg_right h.2 (maximum_abs_nonneg x y)
  linarith [h.1]

theorem passes_of_looser {tol tol' : List (Tolerance ℚ)} (h : List.Forall₂ Looser tol tol')
    (step : List ℚ × List ℚ) (hpasses : passes tol step = true) : passes tol' step = true := by
  obtain ⟨x, y⟩ := step
  simp only [passes] at hpasses ⊢
  induction h generalizing x y with
  | nil => exact hpasses
  | cons h _ ih =>
    cases x with
    | nil => rfl
    | cons a x =>
      cases y with
      | nil => rfl
      | cons b y =>
        rw [within, Bool.and_eq_true] at hpasses ⊢
        exact ⟨close_of_looser h hpasses.1, ih x y hpasses.2⟩

end Tolerance

/-- A trace under looser tolerances: it has no further calls, and converges where the other one
does. -/
structure Trace.Loosened {Point Site Detail : Type}
    (strict loose : Trace Point Site Detail (Ending Point)) : Prop where
  earlier : loose.Earlier strict
  converged : ∀ e, strict.outcome = .ok e → e.converged = true →
    ∃ e', loose.outcome = .ok e' ∧ e'.converged = true

/-- Tolerances that are larger in the sense of a relation loosen each run of a search. -/
def Search.Loosens {Point Reading Site Slope Detail Tolerances : Type}
    (larger : Tolerances → Tolerances → Prop)
    (search : Tolerances → Search Point Reading Site Slope Detail (Ending Point)) : Prop :=
  ∀ (caller : Caller Point Reading Site Slope Detail) (shown : Note Detail → Bool),
    (∀ note, caller.shows note = .ok (shown note)) → ∀ tol tol', larger tol tol' →
      ((search tol).run caller).Loosened ((search tol').run caller)

theorem Search.loosens_of_forks {Point Reading Site Slope Detail Tolerances : Type}
    {larger : Tolerances → Tolerances → Prop}
    {search : Tolerances → Search Point Reading Site Slope Detail (Ending Point)}
    (h : ∀ tol tol', larger tol tol' →
      Forks (fun _ => False) (fun e => e.converged = true) (search tol) (search tol')) :
    Loosens larger search := by
  intro caller shown hs tol tol' hlarger
  cases (h tol tol' hlarger).run caller with
  | same h =>
    rw [← h]
    exact ⟨.of_eq rfl, fun e he hc => ⟨e, he, hc⟩⟩
  | left hL h => exact hL.elim
  | @right answer hR h =>
    rcases h.outcome with ho | ⟨note, cause, herror, -⟩
    · exact ⟨h.earlier, fun _ _ _ => ⟨answer, ho, hR⟩⟩
    · cases (hs note).symm.trans herror

section Methods
variable (limit : ℕ) (x : List ℚ)

theorem Newton.loosens :
    Loosens (List.Forall₂ (· ≤ ·)) fun tol : List ℚ => Newton.search limit tol x := by
  refine loosens_of_forks fun tol tol' h => .report _ ?_
  exact forks_iterate (.never le_rfl (isRoot_of_le h)) (.converged ..) 0 x

theorem Sand.loosens :
    Loosens (List.Forall₂ (· ≤ ·)) fun tol : List ℚ => Sand.search limit tol x := by
  refine loosens_of_forks fun tol tol' h => .report _ ?_
  have hrelated := Grid.related_vector h
  exact forks_iterate hrelated.shape (.never le_rfl (test_of_le hrelated)) (.converged ..) 0 _

theorem Steffensen.loosens :
    Loosens (List.Forall₂ Tolerance.Looser) fun tol => Steffensen.search limit tol x := by
  refine loosens_of_forks fun tol tol' h => .report _ ?_
  exact forks_iterate (.never le_rfl (Tolerance.passes_of_looser h)) (.converged ..) 0 x

theorem Wegstein.loosens :
    Loosens (List.Forall₂ Tolerance.Looser) fun tol => Wegstein.search limit tol x :=
  loosens_of_forks fun _ _ h =>
    forks_search (.never le_rfl (Tolerance.passes_of_looser h)) (.converged ..) x

theorem Broyden.loosens :
    Loosens (List.Forall₂ Tolerance.Looser) fun tol => Broyden.search limit tol x :=
  loosens_of_forks fun _ _ h =>
    forks_search (.never le_rfl (Tolerance.passes_of_looser h)) (.converged ..) x

end Methods
end RootFinding
