import Mathlib

/-!
# Doubles and their parts

A double is a bit pattern that unpacks into a sign, a mantissa and an exponent. The patterns unpack
into canonical parts only, canonical parts survive packing, and so negation, magnitude and the
product with a unit are exact on them.
-/
namespace RootFinding.Number
open Float.Model (Format UnpackedFloat totalExponent)
open Float.Model.UnpackedFloat hiding abs neg

/-- Parts in lowest terms: a full mantissa of 53 bits, or the smallest exponent. -/
def Canonical : UnpackedFloat → Prop
  | .finite _ m e _ => m < 2 ^ 53 ∧ -1074 ≤ e ∧ e ≤ 971 ∧ (2 ^ 52 ≤ m ∨ e = -1074)
  | _ => True

theorem toNat_one_append (m : BitVec 52) : (1#1 ++ m).toNat = 2 ^ 52 + m.toNat := by
  rw [BitVec.toNat_append, ← Nat.shiftLeft_add_eq_or_of_lt m.isLt]
  rfl

theorem canonical_unpack (b : BitVec 64) : Canonical (unpack .binary64 b) := by
  have hm : (@unpackMantissa .binary64 b).toNat < 2 ^ 52 := BitVec.isLt _
  have he : (@unpackExponent .binary64 b).toNat < 2 ^ 11 := BitVec.isLt _
  have hb : (Format.binary64.exponentBias : Int) +
      Format.binary64.mantissaBitsWithoutImplicit = 1075 := rfl
  unfold unpack
  dsimp only
  rw [hb]
  split_ifs with hi hz hs ht
  · trivial
  · trivial
  · trivial
  · have h0 : (@unpackExponent .binary64 b).toNat = 0 := by rw [hs]; rfl
    simp only [Canonical]
    omega
  · have h0 : (@unpackExponent .binary64 b).toNat ≠ 0 :=
      fun h => hs (BitVec.eq_of_toNat_eq h)
    have h1 : (@unpackExponent .binary64 b).toNat ≠ 2 ^ 11 - 1 :=
      fun h => hi (BitVec.eq_of_toNat_eq h)
    simp only [Canonical]
    rw [toNat_one_append]
    omega

theorem toNat_unpackSign (b : BitVec 64) :
    (@unpackSign .binary64 b).toNat = b.toNat / 2 ^ 63 := by
  have hb := b.isLt
  simp [unpackSign, Nat.shiftRight_eq_div_pow]
  omega

theorem ofBitVec_unpackSign (b : BitVec 64) :
    Sign.ofBitVec (@unpackSign .binary64 b) =
      if b.toNat / 2 ^ 63 = 1 then .negative else .positive := by
  have hb := b.isLt
  have hs := toNat_unpackSign b
  unfold Sign.ofBitVec
  split_ifs with h0 h1 h1
  · rw [h0, BitVec.toNat_zero] at hs
    omega
  · rfl
  · rfl
  · have hc : (@unpackSign .binary64 b).toNat = (0#1).toNat := by
      rw [hs, BitVec.toNat_zero]
      omega
    exact absurd (BitVec.eq_of_toNat_eq hc) h0

theorem unpack_packComponents_zero (s : Sign) {m : BitVec 52} (hm : m ≠ 0#52)
    (hp : 0 < m.toNat) :
    unpack .binary64 (packComponents .binary64 s 0#11 m) = .finite s m.toNat (-1074) hp := by
  unfold unpack
  simp only [unpackMantissa_packComponents, unpackExponent_packComponents,
    unpackSign_packComponents, Sign.ofBitVec_toBitVec]
  rw [if_neg (by decide), if_pos trivial, dif_neg hm]
  rfl

theorem unpack_packComponents (s : Sign) {e : BitVec 11} (m : BitVec 52) (h0 : e ≠ 0#11)
    (h1 : e ≠ -1#11) (hp : 0 < (1#1 ++ m).toNat) :
    unpack .binary64 (packComponents .binary64 s e m) =
      .finite s (1#1 ++ m).toNat (e.toNat - 1075) hp := by
  unfold unpack
  simp only [unpackMantissa_packComponents, unpackExponent_packComponents,
    unpackSign_packComponents, Sign.ofBitVec_toBitVec]
  rw [if_neg h1, if_neg h0]
  rfl

theorem unpack_pack {u : UnpackedFloat} (h : Canonical u) :
    unpack .binary64 (pack .binary64 u) = u := by
  cases u with
  | notANumber => rfl
  | infinity s => cases s <;> rfl
  | zero s => cases s <;> rfl
  | finite s m e hm =>
    obtain ⟨hmu, hel, heu, hn⟩ := h
    have hb : (e + Format.binary64.exponentBias +
        Format.binary64.mantissaBitsWithoutImplicit).toNat = (e + 1075).toNat := by
      change (e + 1023 + 52).toNat = _
      omega
    have hlog : m.log2 + 1 = Format.binary64.mantissaBits ↔ 2 ^ 52 ≤ m := by
      rw [← Nat.le_log2 (by omega)]
      have hu := (Nat.log2_lt (by omega)).2 hmu
      change m.log2 + 1 = 53 ↔ _
      omega
    unfold pack
    simp only [hb, hlog]
    rw [if_neg (by omega)]
    split_ifs with hl
    · have hx : (BitVec.ofNat 11 (e + 1075).toNat).toNat = (e + 1075).toNat := by
        rw [BitVec.toNat_ofNat, Nat.mod_eq_of_lt (by omega)]
      have hy : (1#1 ++ BitVec.ofNat 52 m).toNat = m := by
        rw [toNat_one_append, BitVec.toNat_ofNat]
        omega
      have h0 : BitVec.ofNat 11 (e + 1075).toNat ≠ 0#11 := by
        intro hc
        rw [hc, BitVec.toNat_zero] at hx
        omega
      have h1 : BitVec.ofNat 11 (e + 1075).toNat ≠ -1#11 := by
        intro hc
        rw [hc] at hx
        change 2047 = _ at hx
        omega
      rw [unpack_packComponents s _ h0 h1 (by omega)]
      congr 1
      omega
    · have hy : (BitVec.ofNat 52 m).toNat = m := by
        rw [BitVec.toNat_ofNat, Nat.mod_eq_of_lt (by omega)]
      have h0 : BitVec.ofNat 52 m ≠ 0#52 := by
        intro hc
        rw [hc, BitVec.toNat_zero] at hy
        omega
      rw [unpack_packComponents_zero s h0 (by omega)]
      congr 1
      omega

def parts (x : Float) : UnpackedFloat := x.toModel.unpack

theorem canonical_parts (x : Float) : Canonical (parts x) := canonical_unpack _

theorem canonical_neg {u : UnpackedFloat} (h : Canonical u) : Canonical u.neg := by
  cases u <;> exact h

theorem canonical_abs {u : UnpackedFloat} (h : Canonical u) : Canonical u.abs := by
  cases u <;> exact h

theorem parts_abs (x : Float) : parts x.abs = (parts x).abs :=
  unpack_pack (canonical_abs (canonical_parts x))

theorem log2_mul_two_pow {m : Nat} (hm : 0 < m) (k : Nat) : (m * 2 ^ k).log2 = m.log2 + k := by
  induction k with
  | zero => simp
  | succ k ih =>
    rw [Nat.pow_succ', Nat.mul_left_comm, Nat.log2_two_mul (by positivity), ih, Nat.add_assoc]

theorem repeat_shiftRightOne (m k : Nat) :
    Nat.repeat ExtendedMantissa.shiftRightOne k ⟨m * 2 ^ k, false, false⟩ =
      ⟨m, false, false⟩ := by
  induction k generalizing m with
  | zero => simp [Nat.repeat]
  | succ k ih =>
    rw [Nat.repeat, Nat.pow_succ', ← Nat.mul_assoc, ih]
    simp [ExtendedMantissa.shiftRightOne]

theorem targetExponent_of_canonical {s : Sign} {m : Nat} {e : Int} {hm : 0 < m}
    (h : Canonical (.finite s m e hm)) :
    Format.binary64.targetExponent (totalExponent m e) = e := by
  obtain ⟨hmu, hel, heu, hn⟩ := h
  have hu := (Nat.log2_lt (by omega)).2 hmu
  have hl : 52 ≤ m.log2 ↔ _ := Nat.le_log2 (by omega)
  change max ((m.log2 : Int) + 1 + e - 53) (-1074) = e
  omega

/-- A canonical mantissa that was shifted up is shifted back without loss. -/
theorem shiftToTargetExponent_of_canonical {s : Sign} {m : Nat} {e : Int} {hm : 0 < m}
    (h : Canonical (.finite s m e hm)) (k : Nat) :
    shiftToTargetExponent .binary64 (m * 2 ^ k) (e - k) .exact = (⟨m, false, false⟩, e) := by
  have ht : totalExponent (m * 2 ^ k) (e - k) = totalExponent m e := by
    rw [totalExponent, totalExponent, log2_mul_two_pow hm]
    omega
  have hk : (e - (e - k)).toNat = k := by omega
  simp only [shiftToTargetExponent, shiftToExponent, ht, targetExponent_of_canonical h, hk]
  refine Prod.ext (repeat_shiftRightOne m k) ?_
  change e - k + k = e
  omega

theorem roundWithAccuracy_of_canonical {s : Sign} {m : Nat} {e : Int} {hm : 0 < m}
    (h : Canonical (.finite s m e hm)) (t : Sign) (k : Nat) :
    roundWithAccuracy .binary64 t (m * 2 ^ k) (e - k) .exact = .finite t m e hm := by
  have hr : ExtendedMantissa.roundedMantissa ⟨m, false, false⟩ = m := rfl
  have hs := shiftToTargetExponent_of_canonical h 0
  simp only [Nat.pow_zero, Nat.mul_one, Int.natCast_zero, Int.sub_zero] at hs
  unfold roundWithAccuracy
  simp only [shiftToTargetExponent_of_canonical h k, hr, hs]
  rw [dif_neg (by omega)]

def unit (t : Sign) : UnpackedFloat := .finite t (2 ^ 52) (-52) (by decide)

theorem mul_unit {u : UnpackedFloat} (h : Canonical u) (t : Sign) :
    mul .binary64 u (unit t) =
      match t with
      | .positive => u
      | .negative => u.neg := by
  cases u with
  | finite s m e hm =>
    have hr := roundWithAccuracy_of_canonical h (s * t) 52
    cases s <;> cases t <;> exact hr
  | notANumber => cases t <;> rfl
  | infinity s => cases s <;> cases t <;> rfl
  | zero s => cases s <;> cases t <;> rfl

theorem parts_mul_one (x : Float) : parts (x * 1) = parts x := by
  change unpack .binary64 (pack .binary64 (mul .binary64 (parts x) (unit .positive))) = _
  rw [mul_unit (canonical_parts x)]
  exact unpack_pack (canonical_parts x)

theorem parts_mul_neg_one (x : Float) : parts (x * -1) = (parts x).neg := by
  change unpack .binary64 (pack .binary64 (mul .binary64 (parts x) (unit .negative))) = _
  rw [mul_unit (canonical_parts x)]
  exact unpack_pack (canonical_neg (canonical_parts x))

end RootFinding.Number
