import RootFinding.Proofs.Number.Rounding

/-!
# The sign symmetry of doubles

Rounding goes by magnitude, so negation commutes with it: a quotient or product of two negated
doubles is that of the doubles, a difference taken the other way has the same magnitude, and the
magnitude of a product depends on the magnitudes of its factors only. All of this holds for
infinite and undefined doubles as well.
-/
namespace RootFinding.Number
open Float.Model (Format UnpackedFloat totalExponent)
open Float.Model.UnpackedFloat hiding abs neg

theorem unpack_packComponents_abs (s : Sign) (e : BitVec 11) (m : BitVec 52) :
    unpack .binary64 (packComponents .binary64 .positive e m) =
      (unpack .binary64 (packComponents .binary64 s e m)).abs := by
  unfold unpack
  simp only [unpackMantissa_packComponents, unpackExponent_packComponents,
    unpackSign_packComponents, Sign.ofBitVec_toBitVec]
  split_ifs <;> rfl

theorem exists_packComponents {m : Nat} (hm : 0 < m) (e : Int) :
    ∃ (e' : BitVec 11) (m' : BitVec 52), ∀ s,
      pack .binary64 (.finite s m e hm) = packComponents .binary64 s e' m' := by
  unfold pack packedInfinity
  dsimp only
  split_ifs <;> exact ⟨_, _, fun _ => rfl⟩

/-- Packing commutes with taking the magnitude, also where it makes a number infinite. -/
theorem unpack_pack_abs (u : UnpackedFloat) :
    unpack .binary64 (pack .binary64 u.abs) = (unpack .binary64 (pack .binary64 u)).abs := by
  cases u with
  | finite s m e hm =>
    obtain ⟨e', m', h⟩ := exists_packComponents hm e
    rw [UnpackedFloat.abs, h, h, unpack_packComponents_abs]
  | _ => simp [UnpackedFloat.abs]

theorem abs_roundWithAccuracy (s : Sign) (m : Nat) (e : Int) (accuracy : Accuracy) :
    (roundWithAccuracy .binary64 s m e accuracy).abs =
      roundWithAccuracy .binary64 .positive m e accuracy := by
  unfold roundWithAccuracy
  dsimp only
  split_ifs <;> rfl

theorem abs_round (s : Sign) (m : Nat) (e : Int) :
    (Float.Model.UnpackedFloat.round .binary64 s m e).abs =
      Float.Model.UnpackedFloat.round .binary64 .positive m e :=
  abs_roundWithAccuracy ..

theorem abs_normalize (m : Int) (e : Int) (s : Sign) :
    (UnpackedFloat.normalize .binary64 m e s).abs =
      if m = 0 then .zero .positive
      else Float.Model.UnpackedFloat.round .binary64 .positive m.natAbs e := by
  unfold UnpackedFloat.normalize
  rcases lt_trichotomy m 0 with h | h | h
  · have hc : compare m 0 = .lt := Int.compare_eq_lt.2 h
    have hn : (-m).toNat = m.natAbs := by omega
    rw [hc, if_neg (by omega)]
    simp only [abs_round, hn]
  · subst h
    rfl
  · have hc : compare m 0 = .gt := Int.compare_eq_gt.2 h
    have hn : m.toNat = m.natAbs := by omega
    rw [hc, if_neg (by omega)]
    simp only [abs_round, hn]

theorem abs_normalize_sub_comm (m n : Int) (e : Int) (s : Sign) :
    (UnpackedFloat.normalize .binary64 (m - n) e s).abs =
      (UnpackedFloat.normalize .binary64 (n - m) e s).abs := by
  have hzero : m - n = 0 ↔ n - m = 0 := by omega
  have hsize : (m - n).natAbs = (n - m).natAbs := by omega
  rw [abs_normalize, abs_normalize, hsize]
  simp only [hzero]

theorem abs_sub_comm_parts (u v : UnpackedFloat) :
    (sub .binary64 u v).abs = (sub .binary64 v u).abs := by
  cases u with
  | notANumber => cases v <;> rfl
  | infinity s =>
    cases v with
    | infinity t => cases s <;> cases t <;> rfl
    | _ => rfl
  | zero s =>
    cases v with
    | zero t => cases s <;> cases t <;> rfl
    | _ => rfl
  | finite s m e hm =>
    cases v with
    | finite t n f hn =>
      unfold sub
      dsimp only
      rw [min_comm f e]
      exact abs_normalize_sub_comm ..
    | _ => rfl

theorem abs_mul_parts (u v : UnpackedFloat) :
    (mul .binary64 u v).abs = mul .binary64 u.abs v.abs := by
  cases u with
  | finite s m e hm =>
    cases v with
    | finite t n f hn => exact abs_roundWithAccuracy ..
    | _ => rfl
  | _ => cases v <;> rfl

theorem mul_neg_neg_parts (u v : UnpackedFloat) :
    mul .binary64 u.neg v.neg = mul .binary64 u v := by
  have hsign (s t : Sign) : -s * -t = s * t := by cases s <;> cases t <;> rfl
  cases u <;> cases v <;> simp only [UnpackedFloat.neg, mul, hsign]

theorem div_neg_neg_parts (u v : UnpackedFloat) :
    div .binary64 u.neg v.neg = div .binary64 u v := by
  have hsign (s t : Sign) : -s / -t = s / t := by cases s <;> cases t <;> rfl
  cases u <;> cases v <;> simp only [UnpackedFloat.neg, div, hsign]

theorem parts_neg (x : Float) : parts (-x) = (parts x).neg :=
  unpack_pack (canonical_neg (canonical_parts x))

def onParts (op : UnpackedFloat → UnpackedFloat → UnpackedFloat) (x y : Float) : Float :=
  .ofModel (.pack (op (parts x) (parts y)))

theorem parts_onParts (op : UnpackedFloat → UnpackedFloat → UnpackedFloat) (x y : Float) :
    parts (onParts op x y) = unpack .binary64 (pack .binary64 (op (parts x) (parts y))) := rfl

@[simp] theorem mul_neg_neg (x y : Float) : -x * -y = x * y := by
  change onParts (mul .binary64) _ _ = onParts (mul .binary64) _ _
  rw [onParts, onParts, parts_neg, parts_neg, mul_neg_neg_parts]

@[simp] theorem div_neg_neg (x y : Float) : -x / -y = x / y := by
  change onParts (div .binary64) _ _ = onParts (div .binary64) _ _
  rw [onParts, onParts, parts_neg, parts_neg, div_neg_neg_parts]

theorem eq_of_isNaN {x y : Float} (hx : x.isNaN = true) (hy : y.isNaN = true) : x = y := by
  have hbits (z : Float) (hz : z.isNaN = true) :
      z.toModel.toBits.toBitVec = packedNaN .binary64 := by
    have hp : unpack .binary64 z.toModel.toBits.toBitVec = .notANumber := parts_eq_notANumber hz
    unfold unpack at hp
    dsimp only at hp
    split_ifs at hp with he hm
    exact z.toModel.valid.eq_packedNaN he hm
  obtain ⟨⟨⟨b⟩, hb⟩⟩ := x
  obtain ⟨⟨⟨c⟩, hc⟩⟩ := y
  have hbc : b = c := (hbits _ hx).trans (hbits _ hy).symm
  subst hbc
  rfl

/-- The sign of parts; undefined ones have none. -/
def signOf : UnpackedFloat → Sign
  | .infinity s | .zero s | .finite s _ _ _ => s
  | .notANumber => .positive

theorem isNegative_eq (x : Float) : isNegative x = (signOf (parts x) == .negative) := by
  cases hx : x.isNaN with
  | true =>
    rw [parts_eq_notANumber hx, isNegative, hx, Bool.not_true, Bool.and_false]
    rfl
  | false =>
    have hs := ofBitVec_unpackSign x.toModel.toBits.toBitVec
    have hsign : signOf (parts x) =
        if x.toBits.toNat / 2 ^ 63 = 1 then .negative else .positive := by
      change (unpack .binary64 x.toModel.toBits.toBitVec).isNaN = false at hx
      change signOf (unpack .binary64 x.toModel.toBits.toBitVec) =
        if x.toModel.toBits.toBitVec.toNat / 2 ^ 63 = 1 then _ else _
      rw [← hs]
      unfold unpack at hx ⊢
      dsimp only at hx ⊢
      split_ifs at hx ⊢ <;> first | rfl | cases hx
    rw [hsign, isNegative, hx, Nat.pow_eq]
    split_ifs with h
    · rw [h]
      rfl
    · rw [beq_eq_false_iff_ne.2 h]
      rfl

theorem isNegative_neg {x : Float} (hx : x.isNaN = false) : isNegative (-x) = !isNegative x := by
  rw [isNegative_eq, isNegative_eq, parts_neg]
  change (parts x).isNaN = false at hx
  cases hp : parts x with
  | notANumber => rw [hp] at hx; cases hx
  | _ s => cases s <;> rfl

namespace Double
variable {x x' y y' : Double}

theorem value_combine (op : UnpackedFloat → UnpackedFloat → UnpackedFloat)
    (hl : ∀ u, op .notANumber u = .notANumber) (hr : ∀ u, op u .notANumber = .notANumber)
    (x y : Double) : (combine (onParts op) x y).value = onParts op x.value y.value := by
  have hnan (u v : Float) (h : op (parts u) (parts v) = .notANumber) :
      (onParts op u v).isNaN = true := by
    change (parts (onParts op u v)).isNaN = true
    rw [parts_onParts, h]
    rfl
  rw [combine]
  split_ifs with hx hy
  · apply eq_of_isNaN hx
    apply hnan
    rw [parts_eq_notANumber hx, hl]
  · apply eq_of_isNaN hy
    apply hnan
    rw [parts_eq_notANumber hy, hr]
  · rfl

@[simp] theorem add_value (x y : Double) : (x + y).value = x.value + y.value :=
  value_combine (add .binary64) (fun _ => rfl) (fun u => by cases u <;> rfl) x y

@[simp] theorem sub_value (x y : Double) : (x - y).value = x.value - y.value :=
  value_combine (sub .binary64) (fun _ => rfl) (fun u => by cases u <;> rfl) x y

@[simp] theorem mul_value (x y : Double) : (x * y).value = x.value * y.value :=
  value_combine (mul .binary64) (fun _ => rfl) (fun u => by cases u <;> rfl) x y

@[simp] theorem div_value (x y : Double) : (x / y).value = x.value / y.value :=
  value_combine (div .binary64) (fun _ => rfl) (fun u => by cases u <;> rfl) x y

@[simp] theorem neg_value (x : Double) : (-x).value = -x.value := rfl

@[simp] theorem abs_value (x : Double) : x.abs.value = x.value.abs := rfl

theorem abs_eq_abs_iff : x.abs = y.abs ↔ x.value.abs = y.value.abs := by
  constructor
  · intro h
    exact congrArg Double.value h
  · intro h
    unfold Double.abs
    rw [h]

theorem abs_eq_of_parts {u v : Float} (h : (parts u).abs = (parts v).abs) : u.abs = v.abs :=
  congrArg (fun w => Float.ofModel (Float.Model.pack w)) h

theorem abs_onParts {op op' : UnpackedFloat → UnpackedFloat → UnpackedFloat} {u v u' v' : Float}
    (h : (op (parts u) (parts v)).abs = (op' (parts u') (parts v')).abs) :
    (onParts op u v).abs = (onParts op' u' v').abs := by
  apply abs_eq_of_parts
  rw [parts_onParts, parts_onParts, ← unpack_pack_abs, ← unpack_pack_abs, h]

theorem abs_sub_comm (x y : Double) : (x - y).abs = (y - x).abs := by
  rw [abs_eq_abs_iff, sub_value, sub_value]
  exact abs_onParts (abs_sub_comm_parts ..)

/-- The magnitude of a product depends on the magnitudes of its factors only. -/
theorem abs_mul_congr (hx : x.abs = x'.abs) (hy : y.abs = y'.abs) :
    (x * y).abs = (x' * y').abs := by
  have hparts {a b : Double} (h : a.abs = b.abs) : (parts a.value).abs = (parts b.value).abs := by
    rw [← parts_abs, ← parts_abs, abs_eq_abs_iff.1 h]
  rw [abs_eq_abs_iff, mul_value, mul_value]
  apply abs_onParts
  rw [abs_mul_parts, abs_mul_parts, hparts hx, hparts hy]

@[simp] theorem abs_neg (x : Double) : (-x).abs = x.abs := by
  rw [abs_eq_abs_iff, neg_value]
  apply abs_eq_of_parts
  rw [parts_neg]
  cases parts x.value <;> rfl

@[simp] theorem defined_neg : (-x).Defined ↔ x.Defined := by
  change (parts (-x.value)).isNaN = false ↔ (parts x.value).isNaN = false
  rw [parts_neg]
  cases parts x.value <;> rfl

@[simp] theorem neg_lt_zero_iff : -x < 0 ↔ 0 < x := by
  rw [neg_iff, pos_iff, neg_value, parts_neg, neg_compare_zero]
  cases (parts x.value).compare (.zero .positive) with
  | none => simp
  | some o => cases o <;> simp

@[simp] theorem zero_lt_neg_iff : 0 < -x ↔ x < 0 := by
  rw [neg_iff, pos_iff, neg_value, parts_neg, neg_compare_zero]
  cases (parts x.value).compare (.zero .positive) with
  | none => simp
  | some o => cases o <;> simp

@[simp] theorem neg_beq_zero (x : Double) : (-x == 0) = (x == 0) := by
  rw [Bool.eq_iff_iff, zero_iff, zero_iff, neg_value, parts_neg, neg_compare_zero]
  cases (parts x.value).compare (.zero .positive) with
  | none => simp
  | some o => cases o <;> simp

/-- Negation turns the sign bit, also that of an undefined value. -/
@[simp] theorem negative_neg (x : Double) : (-x).negative = !x.negative := by
  have hnan : (-x.value).isNaN = x.value.isNaN := by
    change (parts (-x.value)).isNaN = (parts x.value).isNaN
    rw [parts_neg]
    cases parts x.value <;> rfl
  unfold negative
  rw [neg_value, hnan]
  cases hx : x.value.isNaN with
  | true => rfl
  | false => exact isNegative_neg hx

theorem defined_of_lt (h : x < y) : x.Defined ∧ y.Defined := by
  have hc := (lt_iff_compare ..).1 h
  constructor
  · cases hx : x.value.isNaN with
    | true => rw [parts_eq_notANumber hx] at hc; cases hc
    | false => exact hx
  · cases hy : y.value.isNaN with
    | true =>
      rw [parts_eq_notANumber hy] at hc
      cases hp : parts x.value <;> rw [hp] at hc <;> cases hc
    | false => exact hy

theorem defined_of_abs (h : x.abs.Defined) : x.Defined := by
  change (parts x.value.abs).isNaN = false at h
  rw [parts_abs] at h
  change (parts x.value).isNaN = false
  cases hp : parts x.value <;> rw [hp] at h <;> first | rfl | cases h

theorem defined_of_mul_right (h : (x * y).Defined) : y.Defined := by
  change (combine (· * ·) x y).value.isNaN = false at h
  rw [combine] at h
  split_ifs at h with hx hy
  · rw [hx] at h
    cases h
  · rw [hy] at h
    cases h
  · exact Bool.eq_false_iff.2 hy

/-- A quotient of defined doubles has no sign of an operand when it is undefined. -/
theorem div_of_defined (hx : x.Defined) (hy : y.Defined) : x / y = ⟨x.value / y.value, true⟩ := by
  change combine (· / ·) x y = _
  rw [combine, if_neg (Bool.eq_false_iff.1 hx), if_neg (Bool.eq_false_iff.1 hy)]

theorem not_pos_mul_of_not_defined (hx : ¬x.Defined) (y : Double) : ¬0 < x * y := by
  have hp : parts x.value = .notANumber := parts_eq_notANumber (Bool.not_eq_false _ ▸ hx)
  rw [pos_mul_iff, neg_iff, pos_iff, hp]
  simp

/-- Whether a double with the sign of another is positive does not change where both are
negated. -/
theorem pos_neg_mul_sign_iff (x y : Double) :
    0 < -x * (if (-y).negative then -1 else 1) ↔ 0 < x * (if y.negative then -1 else 1) := by
  by_cases hx : x.Defined
  · have hx' : (-x).Defined := defined_neg.2 hx
    rw [negative_neg]
    cases y.negative with
    | true => simp [pos_mul_one_iff hx', pos_mul_neg_one_iff hx]
    | false => simp [pos_mul_neg_one_iff hx', pos_mul_one_iff hx]
  · apply iff_of_false
    · exact not_pos_mul_of_not_defined (mt defined_neg.1 hx) _
    · exact not_pos_mul_of_not_defined hx _

end Double
end RootFinding.Number
