import RootFinding.Proofs.Number.Fractions

/-!
# Amounts and rounding

The finite doubles are numbers of a grid. A number is rounded to a double next to it: no number of
the grid lies strictly between the two, and the double is infinite from half a step beyond the
largest one on. So a bound on a number that is on the grid itself bounds what it is rounded to as
well.
-/
namespace RootFinding.Number
open Float.Model (Format UnpackedFloat totalExponent)
open Float.Model.UnpackedFloat hiding abs neg

def factor : Sign → ℚ
  | .negative => -1
  | .positive => 1

/-- The number that parts stand for; zero where they are infinite or undefined. -/
def amount : UnpackedFloat → ℚ
  | .finite s m e _ => factor s * (m * 2 ^ e)
  | _ => 0

@[simp] theorem amount_zero (s : Sign) : amount (.zero s) = 0 := rfl

/-- The numbers that a double can hold when it is not bounded. -/
def OnGrid (z : ℚ) : Prop := ∃ m e : ℤ, m.natAbs < 2 ^ 53 ∧ -1074 ≤ e ∧ z = m * 2 ^ e

/-- The first magnitude that is too large for a double, half a step beyond the largest one. -/
def overflow : ℚ := (2 ^ 54 - 1) * 2 ^ (970 : ℤ)

/-- No number of the grid lies strictly between two numbers. -/
structure Nearby (x r : ℚ) : Prop where
  le_of_le : ∀ z, OnGrid z → x ≤ z → r ≤ z
  ge_of_ge : ∀ z, OnGrid z → z ≤ x → z ≤ r

/-- Parts that a number is rounded to. -/
inductive Rounds (x : ℚ) (u : UnpackedFloat) : Prop
  | finite (hu : u.isFinite = true) (hx : |x| < overflow) (hn : Nearby x (amount u))
  | infinite (hx : overflow ≤ |x|) (hu : u = .infinity (if x < 0 then .negative else .positive))

variable {x y z r : ℚ} {u v : UnpackedFloat} {s t : Sign} {num den : Nat} {e f : Int}

theorem OnGrid.neg (h : OnGrid z) : OnGrid (-z) := by
  obtain ⟨m, e, hm, he, rfl⟩ := h
  exact ⟨-m, e, by rwa [Int.natAbs_neg], he, by push_cast; ring⟩

theorem OnGrid.double (h : OnGrid z) : OnGrid (2 * z) := by
  obtain ⟨m, e, hm, he, rfl⟩ := h
  refine ⟨m, e + 1, hm, by omega, ?_⟩
  rw [zpow_add_one₀ (by norm_num)]
  ring

theorem onGrid_nat {n : Nat} (hn : n < 2 ^ 53) (he : -1074 ≤ e) : OnGrid (n * 2 ^ e) :=
  ⟨n, e, hn, he, rfl⟩

theorem onGrid_two_zpow (he : -1074 ≤ e) : OnGrid (2 ^ e) :=
  ⟨1, e, by decide, he, by rw [Int.cast_one, one_mul]⟩

theorem onGrid_zero : OnGrid 0 := ⟨0, 0, by decide, by decide, by norm_num⟩

theorem onGrid_amount (h : Canonical u) : OnGrid (amount u) := by
  cases u with
  | finite s m e hm =>
    have hg := onGrid_nat h.1 h.2.1
    cases s with
    | positive => rwa [amount, factor, one_mul]
    | negative =>
      rw [amount, factor, neg_one_mul]
      exact hg.neg
  | _ => exact onGrid_zero

namespace Nearby

theorem refl (x : ℚ) : Nearby x x := ⟨fun _ _ h => h, fun _ _ h => h⟩

theorem neg (h : Nearby x r) : Nearby (-x) (-r) := by
  refine ⟨fun z hz hx => ?_, fun z hz hx => ?_⟩
  · have := h.ge_of_ge _ hz.neg (by linarith)
    linarith
  · have := h.le_of_le _ hz.neg (by linarith)
    linarith

theorem abs (h : Nearby x r) : Nearby |x| |r| := by
  rcases le_total 0 x with hx | hx
  · rwa [abs_of_nonneg hx, abs_of_nonneg (h.ge_of_ge 0 onGrid_zero hx)]
  · rw [abs_of_nonpos hx, abs_of_nonpos (h.le_of_le 0 onGrid_zero hx)]
    exact h.neg

theorem eq (h : Nearby x r) (hx : OnGrid x) : r = x :=
  le_antisymm (h.le_of_le x hx le_rfl) (h.ge_of_ge x hx le_rfl)

theorem factor_mul (h : Nearby x r) (s : Sign) : Nearby (factor s * x) (factor s * r) := by
  cases s with
  | positive => simpa [factor] using h
  | negative => simpa [factor] using h.neg

end Nearby

/-- A number of the grid is a multiple of a power of two, unless it is less than 53 bits of it. -/
theorem OnGrid.multiple_or_le (hz : OnGrid z) (e : Int) :
    (∃ n : ℤ, z = n * 2 ^ e) ∨ -1074 < e ∧ z ≤ 2 ^ 52 * 2 ^ e := by
  obtain ⟨m, f, hm, hf, rfl⟩ := hz
  by_cases hef : e ≤ f
  · refine .inl ⟨m * 2 ^ (f - e).toNat, ?_⟩
    have hsplit : (2 : ℚ) ^ f = 2 ^ (f - e).toNat * 2 ^ e := by
      rw [← zpow_natCast, ← zpow_add₀ (by norm_num)]
      congr 1
      omega
    rw [hsplit]
    push_cast
    ring
  · refine .inr ⟨by omega, ?_⟩
    have hmq : (m : ℚ) ≤ 2 ^ 53 := by exact_mod_cast (by omega : m ≤ 2 ^ 53)
    have hstep : (2 : ℚ) ^ f * 2 ≤ 2 ^ e := by
      rw [← zpow_add_one₀ (by norm_num)]
      exact zpow_le_zpow_right₀ (by norm_num) (by omega)
    calc (m : ℚ) * 2 ^ f ≤ 2 ^ 53 * 2 ^ f := by gcongr
      _ = 2 ^ 52 * (2 ^ f * 2) := by ring
      _ ≤ 2 ^ 52 * 2 ^ e := by gcongr

theorem OnGrid.multiple (hz : OnGrid z) : ∃ n : ℤ, z = n * 2 ^ (-1074 : ℤ) := by
  rcases hz.multiple_or_le (-1074) with hn | ⟨hlt, -⟩
  · exact hn
  · exact absurd hlt (lt_irrefl _)

/-- A rounded quotient of natural numbers, at an exponent where it has 53 bits or that is the
smallest one. -/
theorem nearby_roundDiv (hd : 0 < den) (hfull : e = -1074 ∨ 2 ^ 52 * den ≤ num) :
    Nearby (num / den * 2 ^ e) (roundDiv num den * 2 ^ e) := by
  have hden : (0 : ℚ) < den := by exact_mod_cast hd
  have hunit : (0 : ℚ) < 2 ^ e := by positivity
  have hup (k : ℕ) (h : (num : ℚ) / den ≤ k) : (roundDiv num den : ℚ) ≤ k := by
    rw [div_le_iff₀ hden] at h
    exact_mod_cast roundDiv_le_of_le hd (by exact_mod_cast h)
  have hdown (k : ℕ) (h : (k : ℚ) ≤ num / den) : (k : ℚ) ≤ roundDiv num den := by
    rw [le_div_iff₀ hden] at h
    exact_mod_cast le_roundDiv_of_le hd (by exact_mod_cast h)
  have hbits (he : -1074 < e) : ((2 ^ 52 : ℕ) : ℚ) ≤ num / den := by
    rw [le_div_iff₀ hden]
    exact_mod_cast hfull.resolve_left (by omega)
  refine ⟨fun z hz hle => ?_, fun z hz hle => ?_⟩
  · rcases hz.multiple_or_le e with ⟨n, rfl⟩ | ⟨he, hsmall⟩
    · have hq : (num : ℚ) / den ≤ n := le_of_mul_le_mul_right hle hunit
      have hn : (0 : ℚ) ≤ n := le_trans (by positivity) hq
      obtain ⟨k, rfl⟩ := Int.eq_ofNat_of_zero_le (by exact_mod_cast hn : (0 : ℤ) ≤ n)
      exact mul_le_mul_of_nonneg_right (hup k hq) hunit.le
    · have hq : (num : ℚ) / den ≤ (2 ^ 52 : ℕ) := by
        refine le_of_mul_le_mul_right (hle.trans (hsmall.trans ?_)) hunit
        norm_num
      refine le_trans ?_ hle
      rw [le_antisymm hq (hbits he)]
      exact mul_le_mul_of_nonneg_right (hup _ hq) hunit.le
  · rcases hz.multiple_or_le e with ⟨n, rfl⟩ | ⟨he, hsmall⟩
    · have hq : (n : ℚ) ≤ num / den := le_of_mul_le_mul_right hle hunit
      refine mul_le_mul_of_nonneg_right ?_ hunit.le
      rcases le_total n 0 with hn | hn
      · exact le_trans (by exact_mod_cast hn) (Nat.cast_nonneg _)
      · obtain ⟨k, rfl⟩ := Int.eq_ofNat_of_zero_le hn
        exact hdown k hq
    · refine hsmall.trans (mul_le_mul_of_nonneg_right ?_ hunit.le)
      exact le_trans (by norm_num) (hdown _ (hbits he))

/-- Packing keeps parts with 53 bits, or the smallest exponent, unless the exponent is too large. -/
theorem unpack_pack_cases (s : Sign) {m : Nat} (hm : 0 < m) (hmu : m < 2 ^ 53) (he : -1074 ≤ e)
    (hfull : 2 ^ 52 ≤ m ∨ e = -1074) :
    unpack .binary64 (pack .binary64 (.finite s m e hm)) =
      if e ≤ 971 then .finite s m e hm else .infinity s := by
  split_ifs with h
  · exact unpack_pack ⟨hmu, he, h, hfull⟩
  · have hb : (e + Format.binary64.exponentBias +
        Format.binary64.mantissaBitsWithoutImplicit).toNat = (e + 1075).toNat := by
      change (e + 1023 + 52).toNat = _
      omega
    have hpack : pack .binary64 (.finite s m e hm) = pack .binary64 (.infinity s) := by
      unfold pack
      simp only [hb]
      rw [if_pos (by omega)]
    rw [hpack, unpack_pack_infinity]

theorem two_zpow_add (n : Nat) (e : Int) : (2 : ℚ) ^ (n + e) = 2 ^ n * 2 ^ e := by
  rw [zpow_add₀ (by norm_num), zpow_natCast]

/-- A bound with a digit more than a mantissa lies between two powers of two. -/
theorem half_step_bounds (e : Int) :
    (2 : ℚ) ^ (53 + e) < (2 ^ 54 - 1) * 2 ^ e ∧ ((2 : ℚ) ^ 54 - 1) * 2 ^ e < 2 ^ (54 + e) ∧
      ((2 : ℚ) ^ 54 - 1) * 2 ^ e = (2 ^ 54 - 1) / 2 * 2 ^ (1 + e) := by
  have hpos : (0 : ℚ) < 2 ^ e := by positivity
  have h53 := two_zpow_add 53 e
  have h54 := two_zpow_add 54 e
  have h1 := two_zpow_add 1 e
  push_cast at h53 h54 h1
  rw [h53, h54, h1]
  exact ⟨mul_lt_mul_of_pos_right (by norm_num) hpos, mul_lt_mul_of_pos_right (by norm_num) hpos,
    by ring⟩

/-- The magnitudes that are too large for a double begin above its largest power of two. -/
theorem lt_overflow : (2 : ℚ) ^ (1023 : ℤ) < overflow := (half_step_bounds 970).1

theorem overflow_pos : 0 < overflow :=
  (by positivity : (0 : ℚ) < 2 ^ (1023 : ℤ)).trans lt_overflow

theorem overflow_lt : overflow < 2 ^ (1024 : ℤ) := (half_step_bounds 970).2.1

theorem overflow_eq : overflow = (2 ^ 54 - 1) / 2 * 2 ^ (971 : ℤ) := (half_step_bounds 970).2.2

/-- A mantissa that is rounded at an exponent makes an infinite double from half a step beyond the
largest one on. -/
theorem lt_overflow_iff (hd : 0 < den) (hlt : num < 2 ^ 53 * den)
    (hfull : e = -1074 ∨ 2 ^ 52 * den ≤ num) :
    (num / den * 2 ^ e : ℚ) < overflow ↔ e ≤ 970 ∨ e = 971 ∧ roundDiv num den < 2 ^ 53 := by
  have hden : (0 : ℚ) < den := by exact_mod_cast hd
  rcases lt_trichotomy e 971 with h | rfl | h
  · refine iff_of_true ?_ (.inl (by omega))
    have hq : (num : ℚ) / den < 2 ^ 53 := by
      rw [div_lt_iff₀ hden]
      exact_mod_cast hlt
    calc (num / den * 2 ^ e : ℚ) < 2 ^ 53 * 2 ^ e := mul_lt_mul_of_pos_right hq (by positivity)
      _ = 2 ^ (53 + e) := (two_zpow_add 53 e).symm
      _ ≤ 2 ^ (1023 : ℤ) := zpow_le_zpow_right₀ (by norm_num) (by omega)
      _ ≤ overflow := lt_overflow.le
  · have hiff := roundDiv_lt_two_mul_iff num hd (j := 2 ^ 52) (by decide)
    have hcast : 2 * num < (4 * 2 ^ 52 - 1) * den ↔ (num : ℚ) / den < (2 ^ 54 - 1) / 2 := by
      rw [div_lt_div_iff₀ hden two_pos, mul_comm, ← Nat.cast_lt (α := ℚ)]
      push_cast
      norm_num
    rw [overflow_eq, mul_lt_mul_iff_left₀ (by positivity), ← hcast, ← hiff]
    simp
  · refine iff_of_false (not_lt.2 ?_) (by omega)
    have hq : (2 : ℚ) ^ 52 ≤ num / den := by
      rw [le_div_iff₀ hden]
      exact_mod_cast hfull.resolve_left (by omega)
    calc overflow ≤ 2 ^ (1024 : ℤ) := overflow_lt.le
      _ ≤ 2 ^ (52 + e) := zpow_le_zpow_right₀ (by norm_num) (by omega)
      _ = 2 ^ 52 * 2 ^ e := two_zpow_add 52 e
      _ ≤ num / den * 2 ^ e := by gcongr

theorem add_shiftAmount_eq {m : Nat}
    (hfit : e ≤ Format.binary64.targetExponent (totalExponent m e)) :
    e + shiftAmount m e = max (m.log2 + e - 52) (-1074) := by
  rw [targetExponent_eq, totalExponent] at hfit
  rw [shiftAmount, targetExponent_eq, totalExponent]
  omega

/-- A shift that is not to the smallest exponent leaves 53 bits. -/
theorem full_of_shiftAmount (num den : Nat)
    (hfit : e ≤ Format.binary64.targetExponent (totalExponent (num / den) e)) :
    e + shiftAmount (num / den) e = -1074 ∨
      2 ^ 52 * (den * 2 ^ shiftAmount (num / den) e) ≤ num := by
  have heq := add_shiftAmount_eq hfit
  by_cases hmin : e + shiftAmount (num / den) e = -1074
  · exact .inl hmin
  · right
    have hlog : (num / den).log2 = 52 + shiftAmount (num / den) e := by omega
    have hm : num / den ≠ 0 := by
      intro h0
      rw [h0, Nat.log2_zero] at hlog
      omega
    have hlow := Nat.log2_self_le hm
    rw [hlog, Nat.pow_add] at hlow
    calc 2 ^ 52 * (den * 2 ^ shiftAmount (num / den) e)
        = 2 ^ 52 * 2 ^ shiftAmount (num / den) e * den := by ring
      _ ≤ num / den * den := Nat.mul_le_mul_right den hlow
      _ ≤ num := Nat.div_mul_le_self num den

theorem abs_factor_mul (s : Sign) (hx : 0 ≤ x) : |factor s * x| = x := by
  cases s <;> simp [factor, abs_of_nonneg hx]

theorem sign_of_factor_mul (s : Sign) (hx : 0 < x) :
    (if factor s * x < 0 then Sign.negative else .positive) = s := by
  cases s with
  | negative => exact if_pos (by rw [factor]; linarith)
  | positive => exact if_neg (by rw [factor]; linarith)

/-- The denominator of a fraction takes the digits between two exponents. -/
theorem div_mul_two_zpow (num : Nat) (hd : 0 < den) (k : Nat) (e : Int) :
    (num / den * 2 ^ e : ℚ) = num / (den * 2 ^ k : Nat) * 2 ^ (e + k) := by
  have hdq : (den : ℚ) ≠ 0 := by exact_mod_cast hd.ne'
  rw [zpow_add₀ (by norm_num), zpow_natCast]
  push_cast
  field_simp

/-- A rounded mantissa that a carry shortens stands for the same number at the next exponent, and has
53 bits there, or the smallest exponent, as it had before. -/
theorem parts_of_carry {r m : Nat} {g f : Int} (hg : -1074 ≤ g) (hfull : g = -1074 ∨ 2 ^ 52 ≤ r)
    (h : m < 2 ^ 53 ∧ m = r ∧ f = g ∨ r = 2 ^ 53 ∧ m = 2 ^ 52 ∧ f = g + 1) :
    m < 2 ^ 53 ∧ -1074 ≤ f ∧ (2 ^ 52 ≤ m ∨ f = -1074) ∧
      (f ≤ 971 ↔ g ≤ 970 ∨ g = 971 ∧ r < 2 ^ 53) ∧ (m * 2 ^ f : ℚ) = r * 2 ^ g := by
  rcases h with ⟨hm, rfl, rfl⟩ | ⟨hr, rfl, rfl⟩
  · exact ⟨hm, hg, hfull.symm, by omega, rfl⟩
  · refine ⟨by decide, by omega, .inl le_rfl, by omega, ?_⟩
    rw [hr, zpow_add_one₀ (by norm_num)]
    push_cast
    ring

theorem rounds_fraction (s : Sign) (hn : 0 < num) (hd : 0 < den)
    (hfit : e ≤ Format.binary64.targetExponent (totalExponent (num / den) e)) :
    Rounds (factor s * (num / den * 2 ^ e)) (unpack .binary64 (pack .binary64
      (roundWithAccuracy .binary64 s (num / den) e (accuracyOfFraction (num % den) den)))) := by
  have hpos : 0 < den * 2 ^ shiftAmount (num / den) e := Nat.mul_pos hd (Nat.two_pow_pos _)
  have hfull := full_of_shiftAmount num den hfit
  have hbits := hfull.imp_right (le_roundDiv_of_le hpos)
  have hnear := nearby_roundDiv hpos hfull
  have hover := lt_overflow_iff hpos (lt_of_shiftAmount num hd e) hfull
  have hx : (0 : ℚ) < num / den * 2 ^ e := by
    have hnq : (0 : ℚ) < num := by exact_mod_cast hn
    have hdq : (0 : ℚ) < den := by exact_mod_cast hd
    positivity
  rw [← div_mul_two_zpow num hd] at hnear hover
  rcases roundWithAccuracy_fraction s num hd e with ⟨h0, hu⟩ | ⟨m, f, hm, hu, hmf⟩
  · rw [hu, unpack_pack_zero]
    refine .finite rfl ?_ ?_
    · rw [abs_factor_mul s hx.le, hover]
      omega
    · rw [h0, Nat.cast_zero, zero_mul] at hnear
      simpa [amount] using hnear.factor_mul s
  · obtain ⟨hmu, hf, hfull', hiff, hval⟩ := parts_of_carry (le_add_shiftAmount ..) hbits hmf
    rw [← hover] at hiff
    rw [hu, unpack_pack_cases s hm hmu hf hfull']
    split_ifs with h
    · refine .finite rfl ?_ ?_
      · rw [abs_factor_mul s hx.le]
        exact hiff.1 h
      · rw [amount, hval]
        exact hnear.factor_mul s
    · refine .infinite ?_ ?_
      · rw [abs_factor_mul s hx.le]
        exact not_lt.1 (mt hiff.2 h)
      · rw [sign_of_factor_mul s hx]

theorem rounds_exact (s : Sign) {m : Nat} (hm : 0 < m)
    (hfit : e ≤ Format.binary64.targetExponent (totalExponent m e)) :
    Rounds (factor s * (m * 2 ^ e)) (unpack .binary64 (pack .binary64
      (roundWithAccuracy .binary64 s m e .exact))) := by
  have h := @rounds_fraction m 1 e s hm one_pos (by rwa [Nat.div_one])
  rw [Nat.div_one, Nat.mod_one, Nat.cast_one, div_one] at h
  exact h

theorem shiftLeft_mul_zpow (m k : Nat) (e : Int) :
    ((m <<< k : Nat) : ℚ) * 2 ^ (e - k) = m * 2 ^ e := by
  have hk := two_zpow_add k (e - k)
  rw [add_sub_cancel] at hk
  rw [hk, Nat.shiftLeft_eq]
  push_cast
  ring

theorem rounds_round (s : Sign) {m : Nat} (hm : 0 < m) (e : Int) :
    Rounds (factor s * (m * 2 ^ e)) (unpack .binary64 (pack .binary64
      (Float.Model.UnpackedFloat.round .binary64 s m e))) := by
  unfold Float.Model.UnpackedFloat.round decreaseExponent
  dsimp only
  generalize ht : Format.binary64.targetExponent (totalExponent m e) = t
  rw [← shiftLeft_mul_zpow m (e - t).toNat e]
  refine rounds_exact s (by rw [Nat.shiftLeft_eq]; positivity) ?_
  have htotal : totalExponent (m <<< (e - t).toNat) (e - (e - t).toNat) = totalExponent m e := by
    rw [totalExponent, totalExponent, Nat.shiftLeft_eq, log2_mul_two_pow hm]
    omega
  rw [htotal, ht]
  omega

theorem rounds_zero (s : Sign) : Rounds 0 (.zero s) := by
  refine .finite rfl ?_ (.refl 0)
  rw [abs_zero]
  exact overflow_pos

theorem rounds_normalize (m : Int) (e : Int) (s : Sign) :
    Rounds (m * 2 ^ e) (unpack .binary64 (pack .binary64
      (UnpackedFloat.normalize .binary64 m e s))) := by
  unfold UnpackedFloat.normalize
  rcases lt_trichotomy m 0 with h | rfl | h
  · have hr := rounds_round .negative (m := (-m).toNat) (by omega) e
    have hm : (((-m).toNat : ℕ) : ℚ) = -m := by exact_mod_cast Int.toNat_of_nonneg (by omega)
    rw [hm, factor, neg_one_mul, neg_mul, neg_neg] at hr
    rw [Int.compare_eq_lt.2 h]
    exact hr
  · rw [Int.cast_zero, zero_mul, Int.compare_eq_eq.2 rfl]
    dsimp only
    rw [unpack_pack_zero]
    exact rounds_zero s
  · have hr := rounds_round .positive (m := m.toNat) (by omega) e
    have hm : ((m.toNat : ℕ) : ℚ) = m := by exact_mod_cast Int.toNat_of_nonneg h.le
    rw [hm, factor, one_mul] at hr
    rw [Int.compare_eq_gt.2 h]
    exact hr

end RootFinding.Number
