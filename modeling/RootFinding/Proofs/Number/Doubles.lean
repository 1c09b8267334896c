import RootFinding.Proofs.Number.Operations

/-!
# Doubles as rounded numbers

A finite double is a number, and an operation on finite doubles rounds the exact result. Finite
doubles compare like their numbers, and what is below or above a double that may be infinite bounds
the exact result as well.
-/
namespace RootFinding.Number
open Float.Model.UnpackedFloat hiding abs neg

variable {q r : ℚ}

namespace Double
variable {x y z : Double}

abbrev Finite (x : Double) : Prop := x.value.isFinite = true

/-- The number that a finite double is. -/
def amount (x : Double) : ℚ := Number.amount (parts x.value)

/-- A double that a number is rounded to. -/
abbrev IsRounded (q : ℚ) (x : Double) : Prop := Rounds q (parts x.value)

theorem onGrid_amount (x : Double) : OnGrid x.amount := Number.onGrid_amount (canonical_parts _)

theorem abs_amount_lt (x : Double) : |x.amount| < overflow :=
  Number.abs_amount_lt (canonical_parts _)

theorem isRounded_add (hx : x.Finite) (hy : y.Finite) :
    IsRounded (x.amount + y.amount) (x + y) := by
  rw [IsRounded, add_value]
  exact rounds_add (canonical_parts _) (canonical_parts _) hx hy

theorem isRounded_sub (hx : x.Finite) (hy : y.Finite) :
    IsRounded (x.amount - y.amount) (x - y) := by
  rw [IsRounded, sub_value]
  exact rounds_sub (canonical_parts _) (canonical_parts _) hx hy

theorem isRounded_mul (hx : x.Finite) (hy : y.Finite) :
    IsRounded (x.amount * y.amount) (x * y) := by
  rw [IsRounded, mul_value]
  exact rounds_mul (canonical_parts _) (canonical_parts _) hx hy

theorem isRounded_div (hx : x.Finite) (hy : y.Finite) (h0 : y.amount ≠ 0) :
    IsRounded (x.amount / y.amount) (x / y) := by
  rw [IsRounded, div_value]
  exact rounds_div hx hy h0

theorem finite_zero : Finite 0 := rfl

@[simp] theorem amount_zero : amount 0 = 0 := rfl

theorem lt_iff_amount (hx : x.Finite) (hy : y.Finite) : x < y ↔ x.amount < y.amount :=
  (lt_iff_compare ..).trans (compare_eq_lt_iff (canonical_parts _) (canonical_parts _) hx hy)

theorem Finite.defined (hx : x.Finite) : x.Defined := by
  change (parts x.value).isFinite = true at hx
  change (parts x.value).isNaN = false
  cases hp : parts x.value <;> rw [hp] at hx <;> first | rfl | cases hx

theorem le_iff_amount (hx : x.Finite) (hy : y.Finite) : x ≤ y ↔ x.amount ≤ y.amount := by
  rw [← not_lt_iff hy.defined hx.defined, lt_iff_amount hy hx, not_lt]

@[simp] theorem amount_abs (x : Double) : x.abs.amount = |x.amount| := by
  rw [amount, abs_value, parts_abs]
  exact Number.amount_abs _

@[simp] theorem finite_neg : (-x).Finite ↔ x.Finite := by
  rw [Finite, neg_value, isFinite_neg]

@[simp] theorem finite_abs : x.abs.Finite ↔ x.Finite := by
  rw [Finite, abs_value, isFinite_abs]

namespace IsRounded

theorem finite_iff (h : IsRounded q x) : x.Finite ↔ |q| < overflow := Rounds.isFinite_iff h

theorem nearby (h : IsRounded q x) (hx : x.Finite) : Nearby q x.amount := Rounds.nearby h hx

theorem defined (h : IsRounded q x) : x.Defined := by
  change (parts x.value).isNaN = false
  cases h with
  | finite hx => exact Finite.defined hx
  | infinite _ hx =>
    rw [hx]
    rfl

theorem lt_of_lt (h : IsRounded q x) (hy : y.Finite) (hlt : y < x) : y.amount < q :=
  Rounds.lt_of_compare h (canonical_parts _) (canonical_parts _) hy ((lt_iff_compare ..).1 hlt)

/-- What is rounded to a bound on the grid is finite, and within the bound. -/
theorem finite_of_abs_le (h : IsRounded q x) (hr : OnGrid r) (hq : |q| ≤ r) (hlt : r < overflow) :
    x.Finite ∧ |x.amount| ≤ r := by
  have hx := h.finite_iff.2 (hq.trans_lt hlt)
  exact ⟨hx, (h.nearby hx).abs.le_of_le r hr hq⟩

theorem neg (h : IsRounded q x) : IsRounded (-q) (-x) := by
  rw [IsRounded, neg_value, parts_neg]
  exact Rounds.neg h

theorem abs (h : IsRounded q x) : IsRounded |q| x.abs := by
  rw [IsRounded, abs_value, parts_abs]
  exact Rounds.abs h

theorem pos (h : IsRounded q x) (hx : 0 < x) : 0 < q := by
  have := h.lt_of_lt finite_zero hx
  rwa [amount_zero] at this

theorem lt_zero (h : IsRounded q x) (hx : x < 0) : q < 0 := by
  have := h.neg.pos (zero_lt_neg_iff.2 hx)
  linarith

/-- A product is positive only where the exact factors have one sign. -/
theorem pos_mul {r : ℚ} (hx : IsRounded q x) (hy : IsRounded r y) (h : 0 < x * y) : 0 < q * r := by
  rcases (pos_mul_iff.1 h).1 with ⟨hx0, hy0⟩ | ⟨hx0, hy0⟩
  · exact mul_pos_of_neg_of_neg (hx.lt_zero hx0) (hy.lt_zero hy0)
  · exact mul_pos (hx.pos hx0) (hy.pos hy0)

end IsRounded

theorem isRounded_self (hx : x.Finite) : IsRounded x.amount x :=
  .finite hx (abs_amount_lt x) (.refl _)

theorem amount_nonneg (hx : x.Finite) (h : ¬x < 0) : 0 ≤ x.amount := by
  rwa [lt_iff_amount hx finite_zero, not_lt, amount_zero] at h

theorem not_neg_abs (x : Double) : ¬x.abs < 0 := by
  rw [neg_iff, abs_value, parts_abs]
  cases parts x.value <;> exact fun h => by cases h

/-- Only a finite double that is not negative has something above it. -/
theorem finite_of_lt (h0 : ¬x < 0) (h : x < y) : x.Finite := by
  have hc := (lt_iff_compare ..).1 h
  rw [neg_iff] at h0
  change (parts x.value).isFinite = true
  cases hp : parts x.value with
  | notANumber => rw [hp] at hc; cases hc
  | infinity s =>
    rw [hp] at hc h0
    cases s with
    | negative => exact absurd rfl h0
    | positive =>
      cases hq : parts y.value with
      | infinity t => rw [hq] at hc; cases t <;> cases hc
      | _ => rw [hq] at hc; cases hc
  | _ => rfl

theorem pos_of_lt (h0 : ¬x < 0) (h : x < y) : 0 < y := by
  have hx := finite_of_lt h0 h
  by_cases hy : y.Finite
  · rw [lt_iff_amount hx hy] at h
    rw [lt_iff_amount finite_zero hy, amount_zero]
    exact (amount_nonneg hx h0).trans_lt h
  · have hc := (lt_iff_compare ..).1 h
    rw [pos_iff]
    change ¬(parts y.value).isFinite = true at hy
    change (parts x.value).isFinite = true at hx
    cases hp : parts y.value with
    | infinity s =>
      rw [hp] at hc
      cases s with
      | positive => rfl
      | negative =>
        cases hq : parts x.value with
        | infinity t => rw [hq] at hx; cases hx
        | _ => rw [hq] at hc; cases hc
    | notANumber =>
      rw [hp] at hc
      cases hq : parts x.value <;> rw [hq] at hc <;> cases hc
    | _ => rw [hp] at hy; exact absurd rfl hy

theorem lt_of_infinity (hx : x.Finite) (hy : parts y.value = .infinity .positive) : x < y := by
  refine (lt_iff_compare ..).2 ?_
  change (parts x.value).isFinite = true at hx
  rw [hy]
  cases hp : parts x.value with
  | notANumber => rw [hp] at hx; cases hx
  | infinity s => rw [hp] at hx; cases hx
  | _ => rfl

abbrev Infinite (x : Double) : Prop := x.Defined ∧ ¬x.Finite

theorem Infinite.exists_sign (hx : x.Infinite) : ∃ s, parts x.value = .infinity s := by
  obtain ⟨hd, hf⟩ := hx
  change (parts x.value).isNaN = false at hd
  change ¬(parts x.value).isFinite = true at hf
  cases hp : parts x.value with
  | notANumber => rw [hp] at hd; cases hd
  | infinity s => exact ⟨s, rfl⟩
  | _ => rw [hp] at hf; exact absurd rfl hf

theorem Infinite.lt_abs (hy : y.Infinite) (hx : x.Finite) : x < y.abs := by
  obtain ⟨s, hs⟩ := hy.exists_sign
  refine lt_of_infinity hx ?_
  rw [abs_value, parts_abs, hs]
  rfl

/-- A finite multiple of an infinite double is infinite, unless it is the product with zero. -/
theorem Infinite.finite_mul (hy : y.Infinite) (hx : x.Finite) (h0 : x.amount ≠ 0) :
    (x * y).Infinite := by
  obtain ⟨t, ht⟩ := hy.exists_sign
  have hparts : ∃ s, parts (x * y).value = .infinity s := by
    change (parts x.value).isFinite = true at hx
    rw [mul_value]
    change ∃ s, unpack .binary64 (pack .binary64
      (mul .binary64 (parts x.value) (parts y.value))) = .infinity s
    rw [ht]
    cases hp : parts x.value with
    | notANumber => rw [hp] at hx; cases hx
    | infinity s => rw [hp] at hx; cases hx
    | zero s => exact absurd (by rw [amount, hp]; rfl) h0
    | finite s m e hm => exact ⟨s * t, unpack_pack_infinity _⟩
  obtain ⟨s, hs⟩ := hparts
  constructor
  · change (parts (x * y).value).isNaN = false
    rw [hs]
    rfl
  · change ¬(parts (x * y).value).isFinite = true
    rw [hs]
    exact Bool.false_ne_true

/-- What is below a difference is below its first number, and the second one is finite, where
neither is negative. -/
theorem lt_of_lt_sub (h0 : ¬x < 0) (hy : ¬y < 0) (h : x < z - y) : y.Finite ∧ x < z := by
  have hx := finite_of_lt h0 h
  have hpos := pos_iff.1 (pos_of_lt h0 h)
  rw [sub_value] at hpos
  obtain ⟨hfy, hz | hz⟩ := finite_of_pos_sub (mt neg_iff.2 hy) hpos
  · refine ⟨hfy, (lt_iff_amount hx hz).2 ?_⟩
    have hlt := (isRounded_sub hz hfy).lt_of_lt hx h
    linarith [amount_nonneg hfy hy]
  · exact ⟨hfy, lt_of_infinity hx hz⟩

theorem finite_of_mul (h : (x * y).Finite) : x.Finite ∧ y.Finite := by
  rw [Finite, mul_value] at h
  exact isFinite_of_mul_parts (isFinite_of_unpack_pack h)

theorem finite_of_add (h : (x + y).Finite) : x.Finite ∧ y.Finite := by
  rw [Finite, add_value] at h
  exact isFinite_of_add_parts (isFinite_of_unpack_pack h)

/-- A product other than zero is more than half of the smallest double. -/
theorem lt_abs_of_amount_mul_ne_zero (hx : x.Finite) (hy : y.Finite) (h : (x * y).amount ≠ 0) :
    (2 : ℚ) ^ (-1075 : ℤ) < |x.amount * y.amount| := by
  rw [amount, mul_value] at h
  exact lt_abs_of_amount_mul_parts hx hy h

theorem amount_two : (2 : Double).amount = 2 := by
  have h : parts (2 : Double).value = .finite .positive (2 ^ 52) (-51) (by decide) := rfl
  rw [amount, h, Number.amount, factor]
  norm_num

theorem amount_three : (3 : Double).amount = 3 := by
  have h : parts (3 : Double).value = .finite .positive (3 * 2 ^ 51) (-51) (by decide) := rfl
  rw [amount, h, Number.amount, factor]
  norm_num

theorem amount_half : (Scalar.half : Double).amount = 1 / 2 := by
  have h : parts (Scalar.half : Double).value = .finite .positive (2 ^ 52) (-53) (by decide) := rfl
  rw [amount, h, Number.amount, factor]
  norm_num

theorem amount_two_epsilon : (2 * Scalar.epsilon : Double).amount = 1 / 2 ^ 51 := by
  have h : parts (2 * Scalar.epsilon : Double).value =
    .finite .positive (2 ^ 52) (-103) (by decide) := rfl
  rw [amount, h, Number.amount, factor]
  norm_num

theorem isRounded_half (hx : x.Finite) :
    IsRounded (x.amount / 2) (Scalar.half * x) ∧ (Scalar.half * x).Finite := by
  have hr := isRounded_mul (rfl : (Scalar.half : Double).Finite) hx
  rw [amount_half, one_div_mul_eq_div] at hr
  refine ⟨hr, hr.finite_iff.2 ?_⟩
  rw [abs_div, abs_two]
  exact (half_le_self (abs_nonneg _)).trans_lt (abs_amount_lt x)

/-- Twice a finite double is exact unless it is infinite. -/
theorem amount_two_mul (hx : x.Finite) (h : (2 * x).Finite) : (2 * x).amount = 2 * x.amount := by
  have hr := isRounded_mul (rfl : (2 : Double).Finite) hx
  rw [amount_two] at hr
  exact (hr.nearby h).eq (onGrid_amount x).double

theorem amount_half_le (hx : x.Finite) : |(Scalar.half * x).amount| ≤ 2 ^ (1023 : ℤ) := by
  obtain ⟨hr, hf⟩ := isRounded_half hx
  refine (hr.nearby hf).abs.le_of_le _ (onGrid_two_zpow (by decide)) ?_
  have hlt := (abs_amount_lt x).trans overflow_lt
  have hpow := two_zpow_add 1 1023
  rw [abs_div, abs_two, div_le_iff₀ two_pos]
  refine hlt.le.trans (le_of_eq ?_)
  rw [pow_one, mul_comm] at hpow
  exact hpow

end Double
end RootFinding.Number
