import RootFinding.Proofs.Bracketing.Passes
import RootFinding.Proofs.Number.Doubles

/-!
# Steps on doubles

On doubles the bracket, half of it, three halves of it and each interpolated step are rounded, and
three halves of a bracket may be infinite. Still no step that a search takes leads beyond the far
end: some number of the grid lies between three quarters of the rounded gap and the exact gap, and
half of any double is no more than half of the largest gap.
-/
namespace RootFinding

namespace Number
variable {gap g h : ℚ}

/-- Between three quarters of a rounded gap and the gap there is a number of the grid, where the gap
lies between the same two grid numbers as its bounds. -/
theorem exists_room_of_bounds {lo a : ℚ} (hg : Nearby gap g) (hh : Nearby (g / 2) h)
    (hlo : OnGrid lo) (ha : OnGrid a) (hle : lo ≤ gap) (hge : gap ≤ 2 * a) (hla : 3 * a ≤ 2 * lo) :
    ∃ z, OnGrid z ∧ 3 * h ≤ 2 * z ∧ z ≤ gap := by
  have hga := hg.le_of_le _ ha.double hge
  have hha := hh.le_of_le a ha (by linarith)
  exact ⟨lo, hlo, by linarith, hle⟩

/-- Between three quarters of a rounded gap and the gap there is a number of the grid, unless the
gap is the smallest double. -/
theorem exists_room {n : Nat} (hn : gap = n * 2 ^ (-1074 : ℤ)) (hg : Nearby gap g)
    (hh : Nearby (g / 2) h) (hmin : 2 ^ (-1074 : ℤ) < g) :
    ∃ z, OnGrid z ∧ 3 * h ≤ 2 * z ∧ z ≤ gap := by
  have hunit : (0 : ℚ) < 2 ^ (-1074 : ℤ) := by positivity
  have hn2 : 2 ≤ n := by
    by_contra hlt
    have hle : gap ≤ 2 ^ (-1074 : ℤ) := by
      have hn1 : (n : ℚ) ≤ 1 := by exact_mod_cast (by omega : n ≤ 1)
      rw [hn]
      exact mul_le_of_le_one_left hunit.le hn1
    exact absurd (hg.le_of_le _ (onGrid_two_zpow le_rfl) hle) (not_le.2 hmin)
  by_cases hsmall : n < 2 ^ 53
  · have hgrid : OnGrid gap := hn ▸ onGrid_nat hsmall le_rfl
    have hhalf : OnGrid (((n + 1) / 2 : ℕ) * 2 ^ (-1074 : ℤ)) := onGrid_nat (by omega) le_rfl
    have hup : (n : ℚ) ≤ 2 * ((n + 1) / 2 : ℕ) := by
      exact_mod_cast (by omega : n ≤ 2 * ((n + 1) / 2))
    have hthree : 3 * (((n + 1) / 2 : ℕ) : ℚ) ≤ 2 * n := by
      exact_mod_cast (by omega : 3 * ((n + 1) / 2) ≤ 2 * n)
    refine ⟨gap, hgrid, ?_, le_rfl⟩
    rw [hg.eq hgrid] at hh
    have hle := hh.le_of_le _ hhalf (by
      rw [hn]
      linarith [mul_le_mul_of_nonneg_right hup hunit.le])
    rw [hn]
    linarith [mul_le_mul_of_nonneg_right hthree hunit.le]
  · have hlog : 53 ≤ n.log2 := (Nat.le_log2 (by omega)).2 (not_lt.1 hsmall)
    obtain ⟨k, hk⟩ : ∃ k, n.log2 = 3 + k := ⟨n.log2 - 3, by omega⟩
    have hlow := Nat.log2_self_le (by omega : n ≠ 0)
    have hup := @Nat.lt_log2_self n
    rw [hk, Nat.pow_add] at hlow
    rw [hk, add_right_comm, Nat.pow_add] at hup
    have hcoarse (j : ℕ) (hj : j < 2 ^ 53) : OnGrid (j * 2 ^ k * 2 ^ (-1074 : ℤ)) := by
      have := onGrid_nat (n := j) (e := k + (-1074)) hj (by omega)
      rwa [two_zpow_add, ← mul_assoc] at this
    have hbounds (j a : ℕ) (hj : j < 2 ^ 53) (ha : a < 2 ^ 53) (hja : 3 * a ≤ 2 * j)
        (hl : j * 2 ^ k ≤ n) (hu : n ≤ 2 * a * 2 ^ k) :
        ∃ z, OnGrid z ∧ 3 * h ≤ 2 * z ∧ z ≤ gap := by
      have hlq : (j : ℚ) * 2 ^ k ≤ n := by exact_mod_cast hl
      have huq : (n : ℚ) ≤ 2 * a * 2 ^ k := by exact_mod_cast hu
      have hjq : 3 * (a : ℚ) ≤ 2 * j := by exact_mod_cast hja
      refine exists_room_of_bounds hg hh (hcoarse j hj) (hcoarse a ha) ?_ ?_ ?_
      · rw [hn]
        exact mul_le_mul_of_nonneg_right hlq hunit.le
      · rw [hn]
        linarith [mul_le_mul_of_nonneg_right huq hunit.le]
      · have hcell : (0 : ℚ) ≤ 2 ^ k * 2 ^ (-1074 : ℤ) := by positivity
        linarith [mul_le_mul_of_nonneg_right hjq hcell]
    by_cases h10 : n ≤ 2 * 5 * 2 ^ k
    · exact hbounds 8 5 (by decide) (by decide) (by decide) hlow h10
    · by_cases h12 : n ≤ 2 * 6 * 2 ^ k
      · exact hbounds 10 6 (by decide) (by decide) (by decide) (by omega) h12
      · exact hbounds 12 8 (by decide) (by decide) (by decide) (by omega) (by omega)

end Number

namespace Brent
open Number Double

variable {ρ : Type} {p : Points Double ρ} {tol d e xm tol1 u v : Double} {gap z : ℚ}

/-- A step from a point that leads toward another one at this distance, and no further than a
bound. -/
structure Toward (gap bound step : ℚ) : Prop where
  le : |step| ≤ bound
  nonneg : 0 ≤ gap → 0 ≤ step
  nonpos : gap ≤ 0 → step ≤ 0

/-- The end of a step toward a double that does not lead beyond it. -/
theorem within_of_toward {b c x : Double} {step : ℚ} (hx : IsRounded (b.amount + step) x)
    (h : Toward (c.amount - b.amount) |c.amount - b.amount| step) :
    x.Finite ∧ x.amount ∈ Set.uIcc b.amount c.amount := by
  have hle := h.le
  rcases le_total 0 (c.amount - b.amount) with hg | hg
  · have h0 := h.nonneg hg
    rw [abs_of_nonneg hg, abs_of_nonneg h0] at hle
    have hlow : b.amount ≤ b.amount + step := by linarith
    have hhigh : b.amount + step ≤ c.amount := by linarith
    have hx' := hx.finite_iff.2 ((abs_le_max_abs_abs hlow hhigh).trans_lt
      (max_lt (abs_amount_lt b) (abs_amount_lt c)))
    have hn := hx.nearby hx'
    exact ⟨hx', Set.mem_uIcc_of_le (hn.ge_of_ge _ (onGrid_amount b) hlow)
      (hn.le_of_le _ (onGrid_amount c) hhigh)⟩
  · have h0 := h.nonpos hg
    rw [abs_of_nonpos hg, abs_of_nonpos h0] at hle
    have hlow : c.amount ≤ b.amount + step := by linarith
    have hhigh : b.amount + step ≤ b.amount := by linarith
    have hx' := hx.finite_iff.2 ((abs_le_max_abs_abs hlow hhigh).trans_lt
      (max_lt (abs_amount_lt c) (abs_amount_lt b)))
    have hn := hx.nearby hx'
    exact ⟨hx', Set.mem_uIcc_of_ge (hn.ge_of_ge _ (onGrid_amount c) hlow)
      (hn.le_of_le _ (onGrid_amount b) hhigh)⟩

/-- Points whose bracket and whose last steps are finite. -/
structure Sound (p : Points Double ρ) : Prop where
  best : p.b.Finite
  far : p.c.Finite
  gap : (p.c - p.b).Finite
  last : p.d.Finite
  before : p.e.Finite

namespace Sound

theorem halfGap_finite (h : Sound p) : (halfGap p).Finite := (isRounded_half h.gap).2

theorem nearby_gap (h : Sound p) : Nearby (p.c.amount - p.b.amount) (p.c - p.b).amount :=
  (isRounded_sub h.far h.best).nearby h.gap

theorem nearby_halfGap (h : Sound p) : Nearby ((p.c - p.b).amount / 2) (halfGap p).amount :=
  (isRounded_half h.gap).1.nearby h.halfGap_finite

theorem halfGap_sign (h : Sound p) :
    (0 ≤ p.c.amount - p.b.amount → 0 ≤ (halfGap p).amount) ∧
      (p.c.amount - p.b.amount ≤ 0 → (halfGap p).amount ≤ 0) := by
  constructor
  · intro h0
    have hg := h.nearby_gap.ge_of_ge 0 onGrid_zero h0
    exact h.nearby_halfGap.ge_of_ge 0 onGrid_zero (by linarith)
  · intro h0
    have hg := h.nearby_gap.le_of_le 0 onGrid_zero h0
    exact h.nearby_halfGap.le_of_le 0 onGrid_zero (by linarith)

/-- Three halves of the rounded half of the bracket leave room in it. -/
theorem exists_room (h : Sound p) (h0 : (halfGap p).amount ≠ 0) :
    ∃ z, OnGrid z ∧ 3 * |(halfGap p).amount| ≤ 2 * z ∧ z ≤ |p.c.amount - p.b.amount| := by
  obtain ⟨m, hm⟩ := (onGrid_amount p.c).multiple
  obtain ⟨n, hn⟩ := (onGrid_amount p.b).multiple
  have hgap : |p.c.amount - p.b.amount| = (m - n).natAbs * 2 ^ (-1074 : ℤ) := by
    rw [hm, hn, ← sub_mul, abs_mul, abs_of_pos (by positivity : (0 : ℚ) < 2 ^ (-1074 : ℤ)),
      Nat.cast_natAbs, Int.cast_abs, Int.cast_sub]
  have hhalf := h.nearby_halfGap.abs
  rw [abs_div, abs_two] at hhalf
  refine Number.exists_room hgap h.nearby_gap.abs hhalf ?_
  have hlt := lt_abs_of_amount_mul_ne_zero (rfl : (Scalar.half : Double).Finite) h.gap h0
  have hpow := two_zpow_add 1 (-1075)
  rw [amount_half, abs_mul, abs_of_pos (by norm_num : (0 : ℚ) < 1 / 2)] at hlt
  rw [pow_one] at hpow
  calc (2 : ℚ) ^ (-1074 : ℤ) = 2 * 2 ^ (-1075 : ℤ) := hpow
    _ < |(p.c - p.b).amount| := by linarith

end Sound

theorem add_lt_overflow {x y : ℚ} (hx : x ≤ 2 ^ (973 : ℤ)) (hy : y ≤ 2 ^ (1023 : ℤ)) :
    x + y < overflow := by
  have hsum (e : ℤ) : (2 : ℚ) ^ (3 + e) + 2 ^ (53 + e) < (2 ^ 54 - 1) * 2 ^ e := by
    have h3 := two_zpow_add 3 e
    have h53 := two_zpow_add 53 e
    push_cast at h3 h53
    rw [h3, h53, ← add_mul]
    exact mul_lt_mul_of_pos_right (by norm_num) (by positivity)
  exact (add_le_add hx hy).trans_lt (hsum 970)

theorem resolution_finite (hb : p.b.Finite) (ht : tol.Finite) (h0 : 0 < tol) :
    (resolution tol p).Finite ∧ 0 ≤ (resolution tol p).amount := by
  have htol : 0 < tol.amount := (isRounded_self ht).pos h0
  have hb' : |p.b.amount| ≤ 2 ^ 51 * 2 ^ (973 : ℤ) :=
    ((abs_amount_lt p.b).trans overflow_lt).le.trans (two_zpow_add 51 973).le
  have hgrid : OnGrid (2 ^ (973 : ℤ)) := onGrid_two_zpow (by decide)
  have hscale := isRounded_mul (rfl : (2 * Scalar.epsilon : Double).Finite) (finite_abs.2 hb)
  rw [amount_two_epsilon, Double.amount_abs, one_div_mul_eq_div] at hscale
  have hscale0 : 0 ≤ |p.b.amount| / 2 ^ 51 := by positivity
  obtain ⟨hs, hsle⟩ := hscale.finite_of_abs_le hgrid
    (by rw [abs_of_nonneg hscale0, div_le_iff₀ (by positivity)]; linarith)
    ((zpow_le_zpow_right₀ (by norm_num) (by decide)).trans_lt lt_overflow)
  have hs0 := (hscale.nearby hs).ge_of_ge 0 onGrid_zero hscale0
  obtain ⟨hr, hf⟩ := isRounded_half ht
  have hr0 := (hr.nearby hf).ge_of_ge 0 onGrid_zero (by linarith)
  have hrle := (le_abs_self _).trans (amount_half_le ht)
  have hsum := isRounded_add hs hf
  have hsum0 := add_nonneg hs0 hr0
  have hfin : (resolution tol p).Finite := by
    refine hsum.finite_iff.2 ?_
    rw [abs_of_nonneg hsum0]
    exact add_lt_overflow ((le_abs_self _).trans hsle) hrle
  exact ⟨hfin, (hsum.nearby hfin).ge_of_ge 0 onGrid_zero hsum0⟩

/-- While the bracket is open, half of it is more than the resolution. -/
theorem resolution_lt_of_open {Raw : Type} [Reading Raw ρ Double] (h : Sound p) (ht : tol.Finite)
    (h0 : 0 < tol) (hopen : isClosed Raw tol p = false) :
    (resolution tol p).amount < |(halfGap p).amount| := by
  have hr := (resolution_finite h.best ht h0).1
  unfold isClosed at hopen
  have hle := (Bool.or_eq_false_iff.1 hopen).1
  have hlt : ¬(halfGap p).abs ≤ resolution tol p := of_decide_eq_false hle
  rwa [le_iff_amount (finite_abs.2 h.halfGap_finite) hr, not_le, Double.amount_abs] at hlt

theorem Sound.halfGap_ne_zero {Raw : Type} [Reading Raw ρ Double] (h : Sound p) (ht : tol.Finite)
    (h0 : 0 < tol) (hopen : isClosed Raw tol p = false) : (halfGap p).amount ≠ 0 :=
  abs_pos.1 ((resolution_finite h.best ht h0).2.trans_lt (resolution_lt_of_open h ht h0 hopen))

theorem not_oriented_neg (pq : Double × Double) : ¬(oriented pq).1 < 0 := by
  unfold oriented
  split_ifs with h
  · exact not_lt_of_lt h
  · rwa [neg_lt_zero_iff]

/-- What the acceptance of an interpolated step says about its exact numerator and denominator. -/
structure Accepted (xm e u v : Double) : Prop where
  numerator : u.Finite
  denominator : v.Finite
  nonneg : 0 ≤ u.amount
  direction : 0 < xm.amount * v.amount
  shrinking : u.amount < |(Scalar.half * e).amount * v.amount|
  inside : (3 * xm).Finite → 2 * u.amount < (3 * xm).amount * v.amount

theorem accepted_of_acceptable (hxm : xm.Finite) (he : e.Finite) (hu : ¬u < 0)
    (h : acceptable tol1 xm e (u, v) = true) : Accepted xm e u v := by
  unfold acceptable at h
  obtain ⟨h3, hhalf⟩ := Bool.and_eq_true_iff.1 h
  have h3' : 2 * u < 3 * xm * v - (tol1 * v).abs := of_decide_eq_true h3
  have hhalf' : u < (Scalar.half * e * v).abs := of_decide_eq_true hhalf
  have hfu := finite_of_lt hu hhalf'
  have hu0 := amount_nonneg hfu hu
  have h2 := isRounded_mul (rfl : (2 : Double).Finite) hfu
  have h2u : ¬2 * u < 0 := by
    intro hneg
    have := h2.lt_zero hneg
    rw [amount_two] at this
    linarith
  have hf2 := finite_of_lt h2u h3'
  obtain ⟨hprod, hlt⟩ := lt_of_lt_sub h2u (not_neg_abs _) h3'
  have hfv := (finite_of_mul (finite_abs.1 hprod)).2
  have hthree := isRounded_mul (rfl : (3 : Double).Finite) hxm
  refine ⟨hfu, hfv, hu0, ?_, ?_, fun hf3 => ?_⟩
  · have hpos := hthree.pos_mul (isRounded_self hfv) (pos_of_lt h2u hlt)
    rw [amount_three] at hpos
    linarith
  · exact (isRounded_mul (isRounded_half he).2 hfv).abs.lt_of_lt hfu hhalf'
  · have := (isRounded_mul hf3 hfv).lt_of_lt hf2 hlt
    rwa [amount_two_mul hfu hf2] at this

theorem three_mul_lt_overflow : 3 * (2 : ℚ) ^ (1022 : ℤ) < overflow := by
  have hlt (e : ℤ) : 3 * (2 : ℚ) ^ (52 + e) < (2 ^ 54 - 1) * 2 ^ e := by
    have h52 := two_zpow_add 52 e
    push_cast at h52
    rw [h52, ← mul_assoc]
    exact mul_lt_mul_of_pos_right (by norm_num) (by positivity)
  exact hlt 970

/-- Where three times the half of the bracket is infinite, the bracket is not below the largest
power of two. -/
theorem Sound.le_gap_of_not_finite (h : Sound p) (h3 : ¬(3 * halfGap p).Finite) :
    2 ^ (1023 : ℤ) ≤ |p.c.amount - p.b.amount| := by
  by_contra hlt
  have hpow (e : ℤ) (he : -1074 ≤ e) : OnGrid (2 ^ e) := onGrid_two_zpow he
  have hg := h.nearby_gap.abs.le_of_le _ (hpow 1023 (by decide)) (not_le.1 hlt).le
  have hhalf := h.nearby_halfGap.abs.le_of_le _ (hpow 1022 (by decide)) (by
    have hsplit : (2 : ℚ) ^ (1023 : ℤ) = 2 ^ 1 * 2 ^ (1022 : ℤ) := two_zpow_add 1 1022
    rw [abs_div, abs_two, div_le_iff₀ two_pos]
    rw [hsplit, pow_one, mul_comm] at hg
    exact hg)
  refine h3 ((isRounded_mul (rfl : (3 : Double).Finite) h.halfGap_finite).finite_iff.2 ?_)
  rw [amount_three, abs_mul, abs_of_pos (by norm_num : (0 : ℚ) < 3)]
  exact (mul_le_mul_of_nonneg_left hhalf (by norm_num)).trans_lt three_mul_lt_overflow

/-- The exact quotient of an accepted step is within a number of the grid that is within the
bracket. -/
theorem Accepted.exists_bound (ha : Accepted (halfGap p) p.e u v) (h : Sound p)
    (h0 : (halfGap p).amount ≠ 0) :
    ∃ z, OnGrid z ∧ |u.amount / v.amount| ≤ z ∧ z ≤ |p.c.amount - p.b.amount| := by
  have hv : 0 < |v.amount| := abs_pos.2 (right_ne_zero_of_mul ha.direction.ne')
  have hquot : |u.amount / v.amount| = u.amount / |v.amount| := by
    rw [abs_div, abs_of_nonneg ha.nonneg]
  rw [hquot]
  by_cases h3 : (3 * halfGap p).Finite
  · obtain ⟨z, hz, hroom, hgap⟩ := h.exists_room h0
    have hthree := isRounded_mul (rfl : (3 : Double).Finite) h.halfGap_finite
    have hle := (hthree.nearby h3).abs.le_of_le _ hz.double (by
      rwa [amount_three, abs_mul, abs_of_pos (by norm_num : (0 : ℚ) < 3)])
    refine ⟨z, hz, ?_, hgap⟩
    rw [div_le_iff₀ hv]
    have hlt := (ha.inside h3).trans_le (le_abs_self _)
    rw [abs_mul] at hlt
    linarith [mul_le_mul_of_nonneg_right hle hv.le]
  · refine ⟨_, onGrid_two_zpow (by decide), ?_, h.le_gap_of_not_finite h3⟩
    rw [div_le_iff₀ hv]
    have hlt := ha.shrinking
    rw [abs_mul] at hlt
    exact hlt.le.trans (mul_le_mul_of_nonneg_right (amount_half_le h.before) hv.le)

/-- The next step of a search is finite, and leads toward the far end but not beyond it. -/
theorem Sound.stride {Raw : Type} [Reading Raw ρ Double] (h : Sound p)
    (h0 : (halfGap p).amount ≠ 0) (hd : chooseStep Raw tol p = .ok (d, e)) :
    d.Finite ∧ e.Finite ∧
      Toward (p.c.amount - p.b.amount) |p.c.amount - p.b.amount| d.amount := by
  obtain ⟨hpos, hneg⟩ := h.halfGap_sign
  rcases bisects_or_accepts hd with ⟨rfl, rfl⟩ | ⟨-, pq, -, hacc, rfl, rfl⟩
  · obtain ⟨z, -, hroom, hgap⟩ := h.exists_room h0
    refine ⟨h.halfGap_finite, h.halfGap_finite, ?_, hpos, hneg⟩
    linarith [abs_nonneg (halfGap p).amount]
  · have ha := accepted_of_acceptable h.halfGap_finite h.before (not_oriented_neg pq) hacc
    obtain ⟨z, hz, hle, hgap⟩ := ha.exists_bound h h0
    have hquot := isRounded_div ha.numerator ha.denominator
      (right_ne_zero_of_mul ha.direction.ne')
    have hlt := hgap.trans_lt ((isRounded_sub h.far h.best).finite_iff.1 h.gap)
    obtain ⟨hfin, hdle⟩ := hquot.finite_of_abs_le hz hle hlt
    refine ⟨hfin, h.last, hdle.trans hgap, fun hg => ?_, fun hg => ?_⟩
    · refine (hquot.nearby hfin).ge_of_ge 0 onGrid_zero (div_nonneg ha.nonneg ?_)
      exact (pos_of_mul_pos_right ha.direction (hpos hg)).le
    · refine (hquot.nearby hfin).le_of_le 0 onGrid_zero ?_
      refine div_nonpos_of_nonneg_of_nonpos ha.nonneg ?_
      exact (neg_of_mul_pos_right ha.direction (hneg hg)).le

theorem Sound.advance_within {Raw : Type} [Reading Raw ρ Double] (h : Sound p) (ht : tol.Finite)
    (htol : 0 < tol) (hopen : isClosed Raw tol p = false)
    (hd : chooseStep Raw tol p = .ok (d, e)) :
    (advance tol p d).Finite ∧ (advance tol p d).amount ∈ Set.uIcc p.b.amount p.c.amount := by
  have hlt := resolution_lt_of_open h ht htol hopen
  obtain ⟨hr, hr0⟩ := resolution_finite h.best ht htol
  have h0 := h.halfGap_ne_zero ht htol hopen
  obtain ⟨hfd, -, htoward⟩ := h.stride h0 hd
  obtain ⟨hpos, hneg⟩ := h.halfGap_sign
  obtain ⟨z, -, hroom, hgap⟩ := h.exists_room h0
  unfold advance
  dsimp only
  split_ifs with hstep hdir
  · exact within_of_toward (isRounded_add h.best hfd) htoward
  · rw [lt_iff_amount finite_zero h.halfGap_finite, Double.amount_zero] at hdir
    refine within_of_toward (isRounded_add h.best hr) ⟨?_, fun _ => hr0, fun hg => ?_⟩
    · rw [abs_of_nonneg hr0]
      linarith [abs_nonneg (halfGap p).amount]
    · exact absurd (hneg hg) (not_le.2 hdir)
  · rw [lt_iff_amount finite_zero h.halfGap_finite, Double.amount_zero] at hdir
    have hsub := isRounded_sub h.best hr
    rw [sub_eq_add_neg] at hsub
    refine within_of_toward hsub ⟨?_, fun hg => ?_, fun _ => by linarith⟩
    · rw [abs_of_nonpos (neg_nonpos.2 hr0)]
      linarith [abs_nonneg (halfGap p).amount]
    · exact absurd (le_antisymm (not_lt.1 hdir) (hpos hg)) h0

end Brent
end RootFinding
