import RootFinding.Proofs.Number.Amounts
import RootFinding.Proofs.Number.Symmetry

/-!
# Operations on amounts

The result of an operation on the finite parts of doubles is the exact result, rounded, and finite
parts compare like their amounts. Only finite parts have a finite sum or product.
-/
namespace RootFinding.Number
open Float.Model (Format UnpackedFloat totalExponent)
open Float.Model.UnpackedFloat hiding abs neg

variable {q r : ℚ} {u v : UnpackedFloat} {s t : Sign} {e f : Int}

theorem factor_neg (s : Sign) : factor (-s) = -factor s := by
  cases s with
  | negative => exact (neg_neg 1).symm
  | positive => rfl

theorem factor_mul (s t : Sign) : factor (s * t) = factor s * factor t := by
  cases s with
  | negative =>
    cases t with
    | negative => exact (by norm_num : (1 : ℚ) = -1 * -1)
    | positive => exact (mul_one (-1)).symm
  | positive => cases t <;> exact (one_mul _).symm

theorem factor_div (s t : Sign) : factor (s / t) = factor s * factor t := factor_mul s t

theorem amount_neg (u : UnpackedFloat) : amount u.neg = -amount u := by
  cases u with
  | finite s m e hm => rw [UnpackedFloat.neg, amount, amount, factor_neg, neg_mul]
  | _ => exact neg_zero.symm

theorem amount_abs (u : UnpackedFloat) : amount u.abs = |amount u| := by
  cases u with
  | finite s m e hm =>
    rw [amount, abs_factor_mul s (by positivity), UnpackedFloat.abs, amount, factor, one_mul]
  | _ => exact abs_zero.symm

theorem abs_amount_lt (h : Canonical u) : |amount u| < overflow := by
  cases u with
  | finite s m e hm =>
    have hmu : (m + 1 : ℚ) ≤ 2 ^ 53 := by exact_mod_cast h.1
    have he : (2 : ℚ) ^ e ≤ 2 ^ (971 : ℤ) := zpow_le_zpow_right₀ (by norm_num) h.2.2.1
    rw [amount, abs_factor_mul s (by positivity), overflow_eq]
    calc (m * 2 ^ e : ℚ) ≤ (2 ^ 53 - 1) * 2 ^ e :=
          mul_le_mul_of_nonneg_right (by linarith) (by positivity)
      _ ≤ (2 ^ 53 - 1) * 2 ^ (971 : ℤ) := mul_le_mul_of_nonneg_left he (by norm_num)
      _ < (2 ^ 54 - 1) / 2 * 2 ^ (971 : ℤ) :=
        mul_lt_mul_of_pos_right (by norm_num) (by positivity)
  | _ =>
    change |(0 : ℚ)| < overflow
    rw [abs_zero]
    exact overflow_pos

theorem rounds_self (h : Canonical u) (hu : u.isFinite = true) :
    Rounds (amount u) (unpack .binary64 (pack .binary64 u)) := by
  rw [unpack_pack h]
  exact .finite hu (abs_amount_lt h) (.refl _)

theorem aligned_mantissa (s : Sign) (m : Nat) (h : e ≤ f) :
    ((s.apply (m <<< (f - e).toNat : Nat) : ℤ) : ℚ) * 2 ^ e = factor s * (m * 2 ^ f) := by
  have hshift := shiftLeft_mul_zpow m (f - e).toNat f
  have he : f - (f - e).toNat = e := by omega
  rw [he] at hshift
  cases s with
  | positive => rw [Sign.apply, Int.cast_natCast, hshift, factor, one_mul]
  | negative =>
    rw [Sign.apply, Int.cast_neg, Int.cast_natCast, neg_mul, hshift, factor, neg_one_mul]

theorem rounds_add (hu : Canonical u) (hv : Canonical v) (hfu : u.isFinite = true)
    (hfv : v.isFinite = true) :
    Rounds (amount u + amount v) (unpack .binary64 (pack .binary64 (add .binary64 u v))) := by
  cases u with
  | notANumber => cases hfu
  | infinity s => cases hfu
  | zero s =>
    cases v with
    | notANumber => cases hfv
    | infinity t => cases hfv
    | zero t =>
      have hzero : ∃ r, add .binary64 (.zero s) (.zero t) = .zero r := by
        cases s <;> cases t <;> exact ⟨_, rfl⟩
      obtain ⟨r, hr⟩ := hzero
      rw [hr, unpack_pack_zero]
      simpa [amount] using rounds_zero r
    | finite t n f hn => simpa [amount, add] using rounds_self hv rfl
  | finite s m e hm =>
    cases v with
    | notANumber => cases hfv
    | infinity t => cases hfv
    | zero t => simpa [amount, add] using rounds_self hu rfl
    | finite t n f hn =>
      have hr := rounds_normalize (s.apply (m <<< (e - min e f).toNat : Nat) +
        t.apply (n <<< (f - min e f).toNat : Nat)) (min e f) .positive
      rw [Int.cast_add, add_mul, aligned_mantissa s m (min_le_left e f),
        aligned_mantissa t n (min_le_right e f)] at hr
      exact hr

theorem sub_eq_add_neg_parts (u v : UnpackedFloat) :
    sub .binary64 u v = add .binary64 u v.neg := by
  have hsign (t : Sign) (n : Int) : (-t).apply n = -t.apply n := by
    cases t with
    | negative => exact (neg_neg n).symm
    | positive => rfl
  cases u with
  | finite s m e hm =>
    cases v with
    | finite t n f hn =>
      rw [UnpackedFloat.neg, add, sub]
      dsimp only
      rw [hsign, sub_eq_add_neg]
    | _ => rfl
  | _ => cases v <;> rfl

theorem rounds_sub (hu : Canonical u) (hv : Canonical v) (hfu : u.isFinite = true)
    (hfv : v.isFinite = true) :
    Rounds (amount u - amount v) (unpack .binary64 (pack .binary64 (sub .binary64 u v))) := by
  have hneg : v.neg.isFinite = true := by
    cases v <;> first | rfl | cases hfv
  rw [sub_eq_add_neg_parts, sub_eq_add_neg, ← amount_neg]
  exact rounds_add hu (canonical_neg hv) hfu hneg

theorem rounds_mul (hu : Canonical u) (hv : Canonical v) (hfu : u.isFinite = true)
    (hfv : v.isFinite = true) :
    Rounds (amount u * amount v) (unpack .binary64 (pack .binary64 (mul .binary64 u v))) := by
  cases u with
  | notANumber => cases hfu
  | infinity s => cases hfu
  | zero s =>
    obtain ⟨r, hr⟩ := exists_zero_mul hfv s
    rw [hr, unpack_pack_zero, amount_zero, zero_mul]
    exact rounds_zero r
  | finite s m e hm =>
    cases v with
    | notANumber => cases hfv
    | infinity t => cases hfv
    | zero t =>
      have hr : mul .binary64 (.finite s m e hm) (.zero t) = .zero (s * t) := rfl
      rw [hr, unpack_pack_zero, amount_zero, mul_zero]
      exact rounds_zero _
    | finite t n f hn =>
      have hfit : e + f ≤ Format.binary64.targetExponent (totalExponent (m * n) (e + f)) := by
        obtain ⟨-, he, -, hm'⟩ := hu
        obtain ⟨-, hf, -, hn'⟩ := hv
        rw [targetExponent_eq, totalExponent]
        by_cases hbits : 52 ≤ (m * n).log2
        · omega
        · have hsmall : m * n < 2 ^ 52 := (Nat.log2_lt (by positivity)).1 (not_le.1 hbits)
          have hme : ¬2 ^ 52 ≤ m := fun h =>
            absurd (h.trans (Nat.le_mul_of_pos_right m hn)) (not_le.2 hsmall)
          have hne : ¬2 ^ 52 ≤ n := fun h =>
            absurd (h.trans (Nat.le_mul_of_pos_left n hm)) (not_le.2 hsmall)
          have := hm'.resolve_left hme
          have := hn'.resolve_left hne
          omega
      have hr := rounds_exact (s * t) (Nat.mul_pos hm hn) hfit
      have hval : factor (s * t) * ((m * n : Nat) * 2 ^ (e + f)) =
          factor s * (m * 2 ^ e) * (factor t * (n * 2 ^ f)) := by
        rw [factor_mul, zpow_add₀ (by norm_num)]
        push_cast
        ring
      rw [hval] at hr
      exact hr

theorem log2_div_of_le {m n j : Nat} (hm : 0 < m) (hn : 0 < n) (h : n.log2 + 53 ≤ m.log2 + j) :
    52 ≤ (m * 2 ^ j / n).log2 := by
  have hlow := Nat.log2_self_le hm.ne'
  have hup := @Nat.lt_log2_self n
  have hq : 2 ^ 52 ≤ m * 2 ^ j / n := by
    rw [Nat.le_div_iff_mul_le hn]
    calc 2 ^ 52 * n ≤ 2 ^ 52 * 2 ^ (n.log2 + 1) := Nat.mul_le_mul_left _ hup.le
      _ = 2 ^ (n.log2 + 53) := by rw [← Nat.pow_add]; congr 1; omega
      _ ≤ 2 ^ (m.log2 + j) := Nat.pow_le_pow_right (by decide) h
      _ = 2 ^ m.log2 * 2 ^ j := Nat.pow_add ..
      _ ≤ m * 2 ^ j := Nat.mul_le_mul_right _ hlow
  exact (Nat.le_log2 (by omega)).2 hq

theorem rounds_div (hfu : u.isFinite = true) (hfv : v.isFinite = true) (h0 : amount v ≠ 0) :
    Rounds (amount u / amount v) (unpack .binary64 (pack .binary64 (div .binary64 u v))) := by
  cases v with
  | notANumber => cases hfv
  | infinity t => cases hfv
  | zero t => exact absurd rfl h0
  | finite t n f hn =>
    cases u with
    | notANumber => cases hfu
    | infinity s => cases hfu
    | zero s =>
      have hr : div .binary64 (.zero s) (.finite t n f hn) = .zero (s / t) := rfl
      rw [hr, unpack_pack_zero, amount_zero, zero_div]
      exact rounds_zero _
    | finite s m e hm =>
      obtain ⟨g, hg⟩ : ∃ g, g = min (e - f)
          (Format.binary64.targetExponent (totalExponent m e - totalExponent n f)) := ⟨_, rfl⟩
      obtain ⟨j, hj⟩ : ∃ j, j = (e - f - g).toNat := ⟨_, rfl⟩
      have hparts : div .binary64 (.finite s m e hm) (.finite t n f hn) =
          roundWithAccuracy .binary64 (s / t) ((m <<< j) / n) g
            (accuracyOfFraction ((m <<< j) % n) n) := by
        rw [hj, hg]
        rfl
      have hge : g ≤ e - f := hg ▸ min_le_left ..
      have hgt : g ≤ max (totalExponent m e - totalExponent n f - 53) (-1074) :=
        hg ▸ min_le_right ..
      have hfit : g ≤ Format.binary64.targetExponent (totalExponent ((m <<< j) / n) g) := by
        rw [Nat.shiftLeft_eq, targetExponent_eq, totalExponent]
        rw [totalExponent, totalExponent] at hgt
        by_cases hmin : g ≤ -1074
        · omega
        · have := log2_div_of_le (j := j) hm hn (by omega)
          omega
      have hr := rounds_fraction (s / t) (by rw [Nat.shiftLeft_eq]; positivity) hn hfit
      have hval : factor (s / t) * ((m <<< j : Nat) / n * 2 ^ g) =
          factor s * (m * 2 ^ e) / (factor t * (n * 2 ^ f)) := by
        have hgj : g = e - f - j := by omega
        have hshift := shiftLeft_mul_zpow m j (e - f)
        have hsq : factor t * factor t = 1 := by cases t <;> norm_num [factor]
        have ht : factor t ≠ 0 := by
          intro h
          rw [h, mul_zero] at hsq
          exact zero_ne_one hsq
        have hnq : (n : ℚ) ≠ 0 := by exact_mod_cast hn.ne'
        have hf : (2 : ℚ) ^ f ≠ 0 := by positivity
        rw [factor_div, hgj, div_mul_eq_mul_div, hshift, zpow_sub₀ (by norm_num)]
        field_simp
        linear_combination factor s * hsq
      rw [hval] at hr
      rw [hparts]
      exact hr

theorem magnitude_lt_of_lt {m n : Nat} (hm : m < 2 ^ 53) (hn : 2 ^ 52 ≤ n) (h : e < f) :
    (m * 2 ^ e : ℚ) < n * 2 ^ f := by
  have hmq : (m : ℚ) < 2 ^ 53 := by exact_mod_cast hm
  have hnq : (2 : ℚ) ^ 52 ≤ n := by exact_mod_cast hn
  have hpow : (2 : ℚ) ^ (1 + e) ≤ 2 ^ f := zpow_le_zpow_right₀ (by norm_num) (by omega)
  calc (m * 2 ^ e : ℚ) < 2 ^ 53 * 2 ^ e := mul_lt_mul_of_pos_right hmq (by positivity)
    _ = 2 ^ 52 * 2 ^ (1 + e) := by
      rw [zpow_add₀ (by norm_num)]
      ring
    _ ≤ n * 2 ^ f := by gcongr

theorem compare_then_eq_lt_iff {m n : Nat} (hm : m < 2 ^ 53 ∧ (2 ^ 52 ≤ m ∨ e = -1074))
    (hn : n < 2 ^ 53 ∧ (2 ^ 52 ≤ n ∨ f = -1074)) (he : -1074 ≤ e) (hf : -1074 ≤ f) :
    (compare e f).then (compare m n) = .lt ↔ (m * 2 ^ e : ℚ) < n * 2 ^ f := by
  rcases lt_trichotomy e f with h | rfl | h
  · rw [Int.compare_eq_lt.2 h]
    exact iff_of_true rfl (magnitude_lt_of_lt hm.1 (hn.2.resolve_right (by omega)) h)
  · rw [Int.compare_eq_eq.2 rfl, Ordering.eq_then, Nat.compare_eq_lt,
      mul_lt_mul_iff_left₀ (by positivity), Nat.cast_lt]
  · rw [Int.compare_eq_gt.2 h]
    exact iff_of_false (fun hc => by cases hc)
      (magnitude_lt_of_lt hn.1 (hm.2.resolve_right (by omega)) h).asymm

theorem compare_eq_lt_iff (hu : Canonical u) (hv : Canonical v) (hfu : u.isFinite = true)
    (hfv : v.isFinite = true) : u.compare v = some .lt ↔ amount u < amount v := by
  have hpos {s : Sign} {m : Nat} {e : Int} (hm : 0 < m) : (0 : ℚ) < m * 2 ^ e := by positivity
  cases u with
  | notANumber => cases hfu
  | infinity s => cases hfu
  | zero s =>
    cases v with
    | notANumber => cases hfv
    | infinity t => cases hfv
    | zero t => simp
    | finite t n f hn =>
      have := hpos (s := t) (e := f) hn
      cases t with
      | positive => exact iff_of_true rfl (by simpa [amount, factor] using this)
      | negative =>
        exact iff_of_false (fun hc => by cases hc) (by simpa [amount, factor] using this.le)
  | finite s m e hm =>
    cases v with
    | notANumber => cases hfv
    | infinity t => cases hfv
    | zero t =>
      have := hpos (s := s) (e := e) hm
      cases s with
      | positive =>
        exact iff_of_false (fun hc => by cases hc) (by simpa [amount, factor] using this.le)
      | negative => exact iff_of_true rfl (by simpa [amount, factor] using this)
    | finite t n f hn =>
      have hmq := hpos (s := s) (e := e) hm
      have hnq := hpos (s := t) (e := f) hn
      cases s with
      | positive =>
        cases t with
        | positive =>
          have hmn := compare_then_eq_lt_iff ⟨hu.1, hu.2.2.2⟩ ⟨hv.1, hv.2.2.2⟩ hu.2.1 hv.2.1
          simpa [UnpackedFloat.compare, amount, factor] using hmn
        | negative =>
          refine iff_of_false (fun hc => by cases hc) (not_lt.2 ?_)
          simp only [amount, factor]
          linarith
      | negative =>
        cases t with
        | positive =>
          refine iff_of_true rfl ?_
          simp only [amount, factor]
          linarith
        | negative =>
          have hnm := compare_then_eq_lt_iff ⟨hv.1, hv.2.2.2⟩ ⟨hu.1, hu.2.2.2⟩ hv.2.1 hu.2.1
          simpa [UnpackedFloat.compare, amount, factor, Ordering.swap_then, Int.compare_swap,
            Nat.compare_swap] using hnm

/-- A finite double that is below what a number is rounded to is below the number. -/
theorem Rounds.lt_of_compare (h : Rounds q u) (hc : Canonical u) (hv : Canonical v)
    (hfv : v.isFinite = true) (hlt : v.compare u = some .lt) : amount v < q := by
  cases h with
  | finite hu _ hn =>
    rw [compare_eq_lt_iff hv hc hfv hu] at hlt
    by_contra hge
    exact absurd (hn.le_of_le _ (onGrid_amount hv) (not_lt.1 hge)) (not_le.2 hlt)
  | infinite hq hu =>
    by_cases hneg : q < 0
    · rw [if_pos hneg] at hu
      subst hu
      cases v with
      | infinity s => cases hfv
      | _ => cases hlt
    · rw [abs_of_nonneg (not_lt.1 hneg)] at hq
      exact (le_abs_self _).trans_lt ((abs_amount_lt hv).trans_le hq)

theorem Rounds.neg (h : Rounds q u) : Rounds (-q) u.neg := by
  cases h with
  | finite hu hq hn =>
    refine .finite ?_ (by rwa [abs_neg]) ?_
    · cases u <;> first | rfl | cases hu
    · rw [amount_neg]
      exact hn.neg
  | infinite hq hu =>
    refine .infinite (by rwa [abs_neg]) ?_
    have h0 : q ≠ 0 := by
      rintro rfl
      rw [abs_zero] at hq
      exact absurd hq (not_le.2 overflow_pos)
    subst hu
    rcases lt_or_gt_of_ne h0 with h | h
    · rw [if_pos h, if_neg (by linarith)]
      rfl
    · rw [if_neg (by linarith), if_pos (by linarith)]
      rfl

theorem Rounds.abs (h : Rounds q u) : Rounds |q| u.abs := by
  cases h with
  | finite hu hq hn =>
    refine .finite ?_ (by rwa [abs_abs]) ?_
    · cases u <;> first | rfl | cases hu
    · rw [amount_abs]
      exact hn.abs
  | infinite hq hu =>
    refine .infinite (by rwa [abs_abs]) ?_
    subst hu
    rw [if_neg (not_lt.2 (abs_nonneg q))]
    rfl

theorem Rounds.isFinite_iff (h : Rounds q u) : u.isFinite = true ↔ |q| < overflow := by
  cases h with
  | finite hu hq _ => exact iff_of_true hu hq
  | infinite hq hu =>
    subst hu
    exact iff_of_false (fun hc => by cases hc) (not_lt.2 hq)

theorem Rounds.nearby (h : Rounds q u) (hu : u.isFinite = true) : Nearby q (amount u) := by
  cases h with
  | finite _ _ hn => exact hn
  | infinite _ hu' =>
    subst hu'
    cases hu

/-- A difference is positive only where the second number is finite, or negative, and where the
first one is finite or positive. -/
theorem finite_of_pos_sub (hv : v.compare (.zero .positive) ≠ some .lt)
    (h : (unpack .binary64 (pack .binary64 (sub .binary64 u v))).compare (.zero .positive) =
      some .gt) : v.isFinite = true ∧ (u.isFinite = true ∨ u = .infinity .positive) := by
  cases v with
  | notANumber =>
    have hsub : sub .binary64 u .notANumber = .notANumber := by cases u <;> rfl
    rw [hsub, unpack_pack_notANumber] at h
    cases h
  | infinity t =>
    cases t with
    | negative => exact absurd rfl hv
    | positive =>
      have hsub : sub .binary64 u (.infinity .positive) = .notANumber ∨
          sub .binary64 u (.infinity .positive) = .infinity .negative := by
        cases u with
        | notANumber => exact .inl rfl
        | infinity s =>
          cases s with
          | positive => exact .inl rfl
          | negative => exact .inr rfl
        | _ => exact .inr rfl
      rcases hsub with hs | hs
      · rw [hs, unpack_pack_notANumber] at h
        cases h
      · rw [hs, unpack_pack_infinity] at h
        cases h
  | _ t =>
    refine ⟨rfl, ?_⟩
    cases u with
    | notANumber =>
      change (unpack .binary64 (pack .binary64 .notANumber)).compare _ = _ at h
      rw [unpack_pack_notANumber] at h
      cases h
    | infinity s =>
      cases s with
      | positive => exact .inr rfl
      | negative =>
        change (unpack .binary64 (pack .binary64 (.infinity .negative))).compare _ = _ at h
        rw [unpack_pack_infinity] at h
        cases h
    | _ => exact .inl rfl

theorem isFinite_of_add_parts (h : (add .binary64 u v).isFinite = true) :
    u.isFinite = true ∧ v.isFinite = true := by
  cases u with
  | notANumber => cases v <;> cases h
  | infinity s =>
    cases v with
    | infinity t => cases s <;> cases t <;> cases h
    | _ => cases h
  | _ =>
    cases v with
    | notANumber => cases h
    | infinity t => cases h
    | _ => exact ⟨rfl, rfl⟩

theorem isFinite_of_mul_parts (h : (mul .binary64 u v).isFinite = true) :
    u.isFinite = true ∧ v.isFinite = true := by
  cases u with
  | notANumber => cases v <;> cases h
  | infinity s => cases v <;> cases h
  | _ =>
    cases v with
    | notANumber => cases h
    | infinity t => cases h
    | _ => exact ⟨rfl, rfl⟩

theorem lt_abs_of_amount_mul_parts (hfu : u.isFinite = true) (hfv : v.isFinite = true)
    (h : amount (unpack .binary64 (pack .binary64 (mul .binary64 u v))) ≠ 0) :
    (2 : ℚ) ^ (-1075 : ℤ) < |amount u * amount v| := by
  cases u with
  | notANumber => cases hfu
  | infinity s => cases hfu
  | zero s =>
    obtain ⟨r, hr⟩ := exists_zero_mul hfv s
    rw [hr, unpack_pack_zero] at h
    exact absurd rfl h
  | finite s m e hm =>
    cases v with
    | notANumber => cases hfv
    | infinity t => cases hfv
    | zero t =>
      have hr : mul .binary64 (.finite s m e hm) (.zero t) = .zero (s * t) := rfl
      rw [hr, unpack_pack_zero] at h
      exact absurd rfl h
    | finite t n f hn =>
      have hval : |amount (.finite s m e hm) * amount (.finite t n f hn)| =
          ((m * n : Nat) : ℚ) * 2 ^ (e + f) := by
        rw [abs_mul, amount, amount, abs_factor_mul s (by positivity),
          abs_factor_mul t (by positivity), zpow_add₀ (by norm_num)]
        push_cast
        ring
      rw [hval, ← not_le, ← le_two_pow_shiftAmount_iff (Nat.mul_pos hm hn),
        ← rounded_eq_zero_iff]
      intro h0
      rcases roundWithAccuracy_cases (s * t) (m * n) (e + f) with ⟨-, hr⟩ | ⟨hne, -⟩
      · rw [mul, hr, unpack_pack_zero] at h
        exact h rfl
      · exact hne h0

end RootFinding.Number
