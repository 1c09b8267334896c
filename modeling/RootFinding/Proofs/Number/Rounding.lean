import RootFinding.Proofs.Number.Order

/-!
# Products that are rounded to zero

A product of doubles other than zero is rounded to zero exactly where its exact value is at most
half of the smallest double. Every other product keeps its sign, also where it is too large for a
double.
-/
namespace RootFinding.Number
open Float.Model (Format UnpackedFloat totalExponent)
open Float.Model.UnpackedFloat hiding abs neg

/-- A shift leaves the quotient, the last bit that it drops, and whether a bit before was set. -/
theorem repeat_shiftRightOne_succ (m k : Nat) :
    Nat.repeat ExtendedMantissa.shiftRightOne (k + 1) ⟨m, false, false⟩ =
      ⟨m / 2 ^ (k + 1), m / 2 ^ k % 2 != 0, m % 2 ^ k != 0⟩ := by
  induction k with
  | zero => simp [Nat.repeat, ExtendedMantissa.shiftRightOne, Nat.mod_one]
  | succ k ih =>
    have hmod : m % 2 ^ (k + 1) = m % 2 ^ k + 2 ^ k * (m / 2 ^ k % 2) := by
      rw [Nat.pow_succ, Nat.mod_mul]
    rw [Nat.repeat, ih]
    simp only [ExtendedMantissa.shiftRightOne, Nat.div_div_eq_div_mul, ← Nat.pow_succ]
    congr 1
    apply Bool.eq_iff_iff.mpr
    simp [hmod]
    tauto

/-- Only the last bit dropped can round up; it does beyond a half, and at a half to an even
mantissa. -/
theorem roundedMantissa_eq (q : Nat) (last before : Bool) :
    ExtendedMantissa.roundedMantissa ⟨q, last, before⟩ =
      if last then if before then q + 1 else q + q % 2 else q := by
  cases last <;> cases before <;> rfl

/-- A mantissa that was shifted and rounded. -/
def rounded (m k : Nat) : Nat :=
  (Nat.repeat ExtendedMantissa.shiftRightOne k ⟨m, false, false⟩).roundedMantissa

theorem rounded_zero (m : Nat) : rounded m 0 = m := rfl

theorem rounded_succ (m k : Nat) :
    rounded m (k + 1) =
      if m / 2 ^ k % 2 = 0 then m / 2 ^ k / 2
      else if m % 2 ^ k = 0 then m / 2 ^ k / 2 + m / 2 ^ k / 2 % 2
      else m / 2 ^ k / 2 + 1 := by
  rw [rounded, repeat_shiftRightOne_succ, roundedMantissa_eq, Nat.pow_succ,
    ← Nat.div_div_eq_div_mul]
  by_cases hb : m / 2 ^ k % 2 = 0 <;> by_cases hs : m % 2 ^ k = 0 <;> simp [hb, hs]

theorem rounded_le (m k : Nat) : rounded m k ≤ m / 2 ^ k + 1 := by
  cases k with
  | zero => simp [rounded_zero]
  | succ k =>
    rw [rounded_succ, Nat.pow_succ, ← Nat.div_div_eq_div_mul]
    split_ifs <;> omega

/-- A mantissa is rounded to zero where it is at most half of the unit that is left. -/
theorem rounded_eq_zero_iff (m k : Nat) : rounded m k = 0 ↔ 2 * m ≤ 2 ^ k := by
  cases k with
  | zero =>
    rw [rounded_zero, Nat.pow_zero]
    omega
  | succ k =>
    have hm := Nat.div_add_mod m (2 ^ k)
    have hr := Nat.mod_lt m (Nat.two_pow_pos k)
    rw [rounded_succ, Nat.pow_succ]
    generalize m / 2 ^ k = q at *
    generalize m % 2 ^ k = r at *
    rw [← hm]
    rcases q with _ | _ | q
    · rw [if_pos rfl]
      omega
    · rw [if_neg (by decide), Nat.zero_add, Nat.mul_one]
      by_cases h0 : r = 0
      · simp [h0, Nat.mul_comm]
      · rw [if_neg h0]
        exact iff_of_false (Nat.succ_ne_zero _) (by omega)
    · have hq : 2 ^ k * (q + 1 + 1) = 2 ^ k * q + 2 ^ k + 2 ^ k := by ring
      have hpos := Nat.two_pow_pos k
      rw [hq]
      constructor
      · intro h
        split_ifs at h <;> omega
      · intro h
        omega

theorem targetExponent_eq (t : Int) : Format.binary64.targetExponent t = max (t - 53) (-1074) := rfl

/-- How far a mantissa is shifted so that it fits a double. -/
def shiftAmount (m : Nat) (e : Int) : Nat :=
  (Format.binary64.targetExponent (totalExponent m e) - e).toNat

theorem shiftToTargetExponent_eq (m : Nat) (e : Int) :
    shiftToTargetExponent .binary64 m e .exact =
      (Nat.repeat ExtendedMantissa.shiftRightOne (shiftAmount m e) ⟨m, false, false⟩,
        e + shiftAmount m e) := rfl

theorem div_shiftAmount_lt (m : Nat) (e : Int) : m / 2 ^ shiftAmount m e < 2 ^ 53 := by
  have hlog := @Nat.lt_log2_self m
  have hle : m.log2 + 1 ≤ 53 + shiftAmount m e := by
    rw [shiftAmount, targetExponent_eq, totalExponent]
    omega
  rw [Nat.div_lt_iff_lt_mul (Nat.two_pow_pos _), ← Nat.pow_add]
  exact Nat.lt_of_lt_of_le hlog (Nat.pow_le_pow_right (by decide) hle)

theorem le_add_shiftAmount (m : Nat) (e : Int) : -1074 ≤ e + shiftAmount m e := by
  rw [shiftAmount, targetExponent_eq]
  omega

/-- A mantissa of at most 53 bits, or the next one, needs no further shift but of one place. -/
theorem shiftAmount_of_le {m : Nat} {e : Int} (hm : m ≤ 2 ^ 53) (he : -1074 ≤ e) :
    shiftAmount m e = if m = 2 ^ 53 then 1 else 0 := by
  rw [shiftAmount, targetExponent_eq, totalExponent]
  split_ifs with h
  · have hlog : m.log2 = 53 := by rw [h, Nat.log2_two_pow]
    omega
  · rcases Nat.eq_zero_or_pos m with rfl | hpos
    · have hlog : (0 : Nat).log2 = 0 := by decide
      omega
    · have hlog := (Nat.log2_lt (by omega)).2 (Nat.lt_of_le_of_ne hm h)
      omega

/-- Rounding gives zero where the mantissa is rounded to zero, and else a finite number that a
double can hold unless it is too large. -/
theorem roundWithAccuracy_cases (s : Sign) (m : Nat) (e : Int) :
    rounded m (shiftAmount m e) = 0 ∧ roundWithAccuracy .binary64 s m e .exact = .zero s ∨
      rounded m (shiftAmount m e) ≠ 0 ∧ ∃ m' e' h, m' < 2 ^ 53 ∧ -1074 ≤ e' ∧
        roundWithAccuracy .binary64 s m e .exact = .finite s m' e' h := by
  have hle : rounded m (shiftAmount m e) ≤ 2 ^ 53 := by
    have := rounded_le m (shiftAmount m e)
    have := div_shiftAmount_lt m e
    omega
  have he := le_add_shiftAmount m e
  have hround : roundWithAccuracy .binary64 s m e .exact =
      let em := shiftToTargetExponent .binary64 (rounded m (shiftAmount m e))
        (e + shiftAmount m e) .exact
      if h : em.1.mantissa = 0 then .zero s
      else .finite s em.1.mantissa em.2 (Nat.pos_of_ne_zero h) := rfl
  rw [hround, shiftToTargetExponent_eq, shiftAmount_of_le hle he]
  generalize rounded m (shiftAmount m e) = r at *
  generalize e + shiftAmount m e = e' at *
  split_ifs with h
  · right
    subst h
    exact ⟨by decide, 2 ^ 52, e' + 1, by decide, by decide, by omega, rfl⟩
  · simp only [Nat.repeat]
    by_cases hr : r = 0
    · exact .inl ⟨hr, dif_pos hr⟩
    · have hlt : r < 2 ^ 53 := Nat.lt_of_le_of_ne hle h
      refine .inr ⟨hr, r, e', Nat.pos_of_ne_zero hr, hlt, he, (dif_neg hr).trans ?_⟩
      simp

@[simp] theorem unpack_pack_notANumber :
    unpack .binary64 (pack .binary64 .notANumber) = .notANumber := rfl

@[simp] theorem unpack_pack_infinity (s : Sign) :
    unpack .binary64 (pack .binary64 (.infinity s)) = .infinity s := by
  cases s <;> rfl

@[simp] theorem unpack_pack_zero (s : Sign) :
    unpack .binary64 (pack .binary64 (.zero s)) = .zero s := by
  cases s <;> rfl

def side : Sign → Ordering
  | .negative => .lt
  | .positive => .gt

theorem side_mul_eq_gt (s t : Sign) :
    side (s * t) = .gt ↔ side s = .lt ∧ side t = .lt ∨ side s = .gt ∧ side t = .gt := by
  cases s <;> cases t <;> decide

@[simp] theorem compare_notANumber_zero (t : Sign) :
    UnpackedFloat.notANumber.compare (.zero t) = none := rfl

@[simp] theorem compare_zero_zero (s t : Sign) :
    (UnpackedFloat.zero s).compare (.zero t) = some .eq := rfl

@[simp] theorem compare_infinity_zero (s t : Sign) :
    (UnpackedFloat.infinity s).compare (.zero t) = some (side s) := by
  cases s <;> rfl

@[simp] theorem compare_finite_zero (s : Sign) (m : Nat) (e : Int) (hm : 0 < m) (t : Sign) :
    (UnpackedFloat.finite s m e hm).compare (.zero t) = some (side s) := by
  cases s <;> rfl

theorem compare_unpack_pack_finite (s : Sign) {m : Nat} {e : Int} (hm : 0 < m) (hmu : m < 2 ^ 53)
    (he : -1074 ≤ e) :
    (unpack .binary64 (pack .binary64 (.finite s m e hm))).compare (.zero .positive) =
      some (side s) := by
  have hb : (e + Format.binary64.exponentBias +
      Format.binary64.mantissaBitsWithoutImplicit).toNat = (e + 1075).toNat := by
    change (e + 1023 + 52).toNat = _
    omega
  by_cases hlarge : 971 < e
  · have hpack : pack .binary64 (.finite s m e hm) = pack .binary64 (.infinity s) := by
      unfold pack
      simp only [hb]
      rw [if_pos (by omega)]
    rw [hpack, unpack_pack_infinity, compare_infinity_zero]
  · by_cases hn : 2 ^ 52 ≤ m
    · have hc : Canonical (.finite s m e hm) := ⟨hmu, he, by omega, .inl hn⟩
      rw [unpack_pack hc, compare_finite_zero]
    · have hlog : ¬m.log2 + 1 = Format.binary64.mantissaBits := by
        have hl := (Nat.log2_lt (by omega)).2 (not_le.1 hn)
        change ¬m.log2 + 1 = 53
        omega
      have hx : (BitVec.ofNat 52 m).toNat = m := by
        rw [BitVec.toNat_ofNat, Nat.mod_eq_of_lt (by omega)]
      have h0 : BitVec.ofNat 52 m ≠ 0#52 := by
        intro hc
        rw [hc, BitVec.toNat_zero] at hx
        omega
      have hpack : pack .binary64 (.finite s m e hm) =
          packComponents .binary64 s 0#11 (BitVec.ofNat 52 m) := by
        unfold pack
        simp only [hb, hlog]
        rw [if_neg (by omega), if_neg not_false]
      rw [hpack, unpack_packComponents_zero s h0 (by omega), compare_finite_zero]

/-- A rounded number is positive unless it has a minus or is rounded to zero. -/
theorem pos_roundWithAccuracy_iff (s : Sign) (m : Nat) (e : Int) :
    (unpack .binary64 (pack .binary64 (roundWithAccuracy .binary64 s m e .exact))).compare
        (.zero .positive) = some .gt ↔ side s = .gt ∧ ¬2 * m ≤ 2 ^ shiftAmount m e := by
  rw [← rounded_eq_zero_iff]
  rcases roundWithAccuracy_cases s m e with ⟨h0, hr⟩ | ⟨h0, m', e', hm', hu, hl, hr⟩
  · simp [h0, hr]
  · rw [hr, compare_unpack_pack_finite s hm' hu hl]
    simp [h0]

/-- A mantissa is rounded to zero where the number is at most half of the smallest double. -/
theorem le_two_pow_shiftAmount_iff {m : Nat} (hm : 0 < m) (e : Int) :
    2 * m ≤ 2 ^ shiftAmount m e ↔ (m : ℚ) * 2 ^ e ≤ 2 ^ (-1075 : ℤ) := by
  have hlow : 2 ^ m.log2 ≤ m := Nat.log2_self_le (by omega)
  by_cases hsmall : (m.log2 : Int) + e < -1074
  · have hk : (shiftAmount m e : Int) = -1074 - e := by
      rw [shiftAmount, targetExponent_eq, totalExponent]
      omega
    have hpow : (2 : ℚ) ^ shiftAmount m e * 2 ^ e = 2 ^ (-1074 : ℤ) := by
      rw [← zpow_natCast, hk, ← zpow_add₀ (by norm_num)]
      congr 1
      omega
    have hhalf : (2 : ℚ) ^ (-1074 : ℤ) = 2 * 2 ^ (-1075 : ℤ) := by
      rw [← zpow_one_add₀ (by norm_num)]
      congr 1
    have he : (0 : ℚ) < 2 ^ e := by positivity
    rw [← Nat.cast_le (α := ℚ), ← mul_le_mul_iff_left₀ he]
    rw [Nat.cast_mul, Nat.cast_pow, Nat.cast_two, hpow, hhalf, mul_assoc]
    exact mul_le_mul_iff_right₀ (by norm_num)
  · apply iff_of_false
    · have hle : shiftAmount m e ≤ m.log2 := by
        rw [shiftAmount, targetExponent_eq, totalExponent]
        omega
      have := Nat.pow_le_pow_right (by decide : 0 < 2) hle
      omega
    · apply not_le.2
      calc (2 : ℚ) ^ (-1075 : ℤ) < 2 ^ ((m.log2 : Int) + e) :=
            zpow_lt_zpow_right₀ (by norm_num) (by omega)
        _ = 2 ^ m.log2 * 2 ^ e := by rw [zpow_add₀ (by norm_num), zpow_natCast]
        _ ≤ m * 2 ^ e := by
            apply mul_le_mul_of_nonneg_right _ (by positivity)
            exact_mod_cast hlow

def Exact.magnitude? : Exact → Option ℚ
  | .finite _ mantissa exponent => some (mantissa * 2 ^ exponent)
  | _ => none

def exactOf : UnpackedFloat → Exact
  | .notANumber => .undefined
  | .infinity s => .infinite (s == .negative)
  | .zero s => .finite (s == .negative) 0 (-1074)
  | .finite s m e _ => .finite (s == .negative) m e

theorem ofBits_eq (b : BitVec 64) : Exact.ofBits b.toNat = exactOf (unpack .binary64 b) := by
  have hm : b.toNat % 2 ^ 52 = (@unpackMantissa .binary64 b).toNat := by
    simp [unpackMantissa]
  have he : b.toNat / 2 ^ 52 % 2 ^ 11 = (@unpackExponent .binary64 b).toNat := by
    simp [unpackExponent, Nat.shiftRight_eq_div_pow]
  have hs : (b.toNat / 2 ^ 63 % 2 == 1) =
      (Sign.ofBitVec (@unpackSign .binary64 b) == .negative) := by
    have hb := b.isLt
    rw [ofBitVec_unpackSign, Nat.mod_eq_of_lt (by omega)]
    split_ifs with h
    · rw [h]
      rfl
    · rw [beq_eq_false_iff_ne.2 h]
      rfl
  unfold Exact.ofBits unpack
  simp only [Nat.pow_eq, hs, hm, he]
  have hinf : @unpackExponent .binary64 b = -1#11 ↔ (@unpackExponent .binary64 b).toNat = 2047 :=
    BitVec.toNat_inj.symm
  have hsub : @unpackExponent .binary64 b = 0#11 ↔ (@unpackExponent .binary64 b).toNat = 0 :=
    BitVec.toNat_inj.symm
  have hzero : @unpackMantissa .binary64 b = 0#52 ↔ (@unpackMantissa .binary64 b).toNat = 0 :=
    BitVec.toNat_inj.symm
  by_cases hi : @unpackExponent .binary64 b = -1#11
  · rw [if_pos hi, if_pos (hinf.1 hi)]
    by_cases hz : @unpackMantissa .binary64 b = 0#52
    · rw [if_pos hz, if_pos (hzero.1 hz), exactOf]
    · rw [if_neg hz, if_neg (mt hzero.2 hz), exactOf]
  · rw [if_neg hi, if_neg (mt hinf.2 hi)]
    by_cases h0 : @unpackExponent .binary64 b = 0#11
    · rw [if_pos h0, if_pos (hsub.1 h0)]
      by_cases hz : @unpackMantissa .binary64 b = 0#52
      · rw [dif_pos hz, exactOf, hzero.1 hz]
      · rw [dif_neg hz, exactOf, hsub.1 h0]
        rfl
    · rw [if_neg h0, if_neg (mt hsub.2 h0), exactOf, toNat_one_append, Nat.add_comm]
      rfl

theorem ofFloat_eq (x : Float) : Exact.ofFloat x = exactOf (parts x) := ofBits_eq _

/-- Factors whose product is too small for a double: both are finite, and the product of their
magnitudes is at most half of the smallest double. -/
def Exact.Vanishing (x y : Exact) : Prop :=
  ∃ p q, x.magnitude? = some p ∧ y.magnitude? = some q ∧ p * q ≤ 2 ^ (-1075 : ℤ)

@[simp] theorem vanishing_finite {a b : Bool} {m n : Nat} {e f : Int} :
    (Exact.finite a m e).Vanishing (.finite b n f) ↔
      ((m * n : Nat) : ℚ) * 2 ^ (e + f) ≤ 2 ^ (-1075 : ℤ) := by
  have hexp : ((m * n : Nat) : ℚ) * 2 ^ (e + f) = m * 2 ^ e * (n * 2 ^ f) := by
    rw [zpow_add₀ (by norm_num), Nat.cast_mul]
    ring
  rw [hexp]
  constructor
  · rintro ⟨p, q, hp, hq, h⟩
    cases hp
    cases hq
    exact h
  · intro h
    exact ⟨_, _, rfl, rfl, h⟩

@[simp] theorem not_vanishing_infinite {a : Bool} {y : Exact} :
    ¬(Exact.infinite a).Vanishing y := by
  simp [Exact.Vanishing, Exact.magnitude?]

@[simp] theorem not_vanishing_infinite_right {b : Bool} {x : Exact} :
    ¬x.Vanishing (.infinite b) := by
  simp [Exact.Vanishing, Exact.magnitude?]

/-- The product of two doubles is positive where they are on one side of zero and it does not
vanish. -/
theorem pos_mul_parts_iff (u v : UnpackedFloat) :
    (unpack .binary64 (pack .binary64 (mul .binary64 u v))).compare (.zero .positive) = some .gt ↔
      (u.compare (.zero .positive) = some .lt ∧ v.compare (.zero .positive) = some .lt ∨
        u.compare (.zero .positive) = some .gt ∧ v.compare (.zero .positive) = some .gt) ∧
        ¬(exactOf u).Vanishing (exactOf v) := by
  cases u with
  | notANumber => simp [mul]
  | zero s => cases v <;> simp [mul]
  | infinity s => cases v <;> simp [mul, exactOf, side_mul_eq_gt]
  | finite s m e hm =>
    cases v with
    | finite t n f hn =>
      rw [mul, pos_roundWithAccuracy_iff, le_two_pow_shiftAmount_iff (Nat.mul_pos hm hn), exactOf,
        exactOf, vanishing_finite]
      simp only [compare_finite_zero, Option.some_inj, side_mul_eq_gt]
    | _ => simp [mul, exactOf, side_mul_eq_gt]

theorem parts_eq_notANumber {x : Float} (h : x.isNaN = true) : parts x = .notANumber := by
  change (parts x).isNaN = true at h
  cases hp : parts x with
  | notANumber => rfl
  | _ => rw [hp] at h; cases h

theorem notANumber_mul (u : UnpackedFloat) : mul .binary64 .notANumber u = .notANumber := by
  cases u <;> rfl

theorem mul_notANumber (u : UnpackedFloat) : mul .binary64 u .notANumber = .notANumber := by
  cases u <;> rfl

namespace Double
variable {x y : Double}

/-- Doubles whose product is too small for a double. -/
def Vanishing (x y : Double) : Prop := (Exact.ofFloat x.value).Vanishing (.ofFloat y.value)

theorem vanishing_comm : Vanishing x y ↔ Vanishing y x := by
  constructor
  · rintro ⟨p, q, hp, hq, h⟩
    exact ⟨q, p, hq, hp, mul_comm p q ▸ h⟩
  · rintro ⟨p, q, hp, hq, h⟩
    exact ⟨q, p, hq, hp, mul_comm p q ▸ h⟩

/-- The product of two doubles is positive where they are on one side of zero and it does not
vanish. -/
theorem pos_mul_iff : 0 < x * y ↔ (x < 0 ∧ y < 0 ∨ 0 < x ∧ 0 < y) ∧ ¬Vanishing x y := by
  unfold Vanishing
  rw [pos_iff, neg_iff, neg_iff, pos_iff, pos_iff, ofFloat_eq, ofFloat_eq, ← pos_mul_parts_iff]
  change (parts (combine (· * ·) x y).value).compare _ = _ ↔ _
  rw [combine]
  split_ifs with hx hy
  · simp [parts_eq_notANumber hx, notANumber_mul]
  · simp [parts_eq_notANumber hy, mul_notANumber]
  · rfl

end Double
end RootFinding.Number
