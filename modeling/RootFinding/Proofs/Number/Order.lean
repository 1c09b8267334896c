import RootFinding.Proofs.Number.Packing
import RootFinding.Scalar

/-!
# The order of doubles

Defined doubles compare like numbers: one of two is below the other unless they are equal, zero lies
between the two signs and below every other magnitude, and the sign bit tells the side of zero.
-/
namespace RootFinding.Number
open Float.Model (UnpackedFloat)
open Float.Model.UnpackedFloat hiding abs neg

theorem compare_swap (u v : UnpackedFloat) :
    v.compare u = (u.compare v).map Ordering.swap := by
  cases u with
  | notANumber => cases v <;> rfl
  | infinity s =>
    cases s <;> cases v with
    | infinity t => cases t <;> rfl
    | _ => rfl
  | zero s =>
    cases v with
    | infinity t | finite t => cases t <;> rfl
    | _ => rfl
  | finite s m e hm =>
    cases s <;> cases v with
    | infinity t => cases t <;> rfl
    | finite t n f hn =>
      cases t <;>
        simp [UnpackedFloat.compare, Ordering.swap_then, Int.compare_swap, Nat.compare_swap]
    | _ => rfl

theorem isSome_compare {u v : UnpackedFloat} (hu : u.isNaN = false) (hv : v.isNaN = false) :
    (u.compare v).isSome := by
  cases u with
  | notANumber => cases hu
  | infinity s =>
    cases v with
    | notANumber => cases hv
    | infinity t => rfl
    | _ => cases s <;> rfl
  | zero s =>
    cases v with
    | notANumber => cases hv
    | zero t => rfl
    | _ t => cases t <;> rfl
  | finite s m e hm =>
    cases v with
    | notANumber => cases hv
    | zero t => cases s <;> rfl
    | _ t => cases s <;> cases t <;> rfl

theorem compare_self {u : UnpackedFloat} (hu : u.isNaN = false) : u.compare u = some .eq := by
  obtain ⟨o, ho⟩ := Option.isSome_iff_exists.1 (isSome_compare hu hu)
  have hswap := compare_swap u u
  rw [ho] at hswap ⊢
  cases o <;> first | rfl | cases hswap

theorem lt_iff_compare (x y : Float) : x < y ↔ (parts x).compare (parts y) = some .lt := by
  change decide ((parts x).lt (parts y) = true) = true ↔ _
  rw [decide_eq_true_iff]
  exact beq_iff_eq

theorem le_iff_compare (x y : Float) :
    x ≤ y ↔ ((parts x).compare (parts y)).any (·.isLE) = true := by
  change decide ((parts x).le (parts y) = true) = true ↔ _
  rw [decide_eq_true_iff]
  rfl

theorem beq_iff_compare (x y : Float) :
    (x == y) = true ↔ (parts x).compare (parts y) = some .eq := by
  change (parts x).beq (parts y) = true ↔ _
  exact beq_iff_eq

theorem neg_compare_zero (u : UnpackedFloat) (s : Sign) :
    u.neg.compare (.zero s) = (u.compare (.zero s)).map Ordering.swap := by
  cases u with
  | notANumber | zero t => rfl
  | _ t => cases t <;> rfl

theorem zero_compare_abs {u : UnpackedFloat} (hu : u.isNaN = false) (s : Sign)
    (h : u.compare (.zero s) ≠ some .eq) (t : Sign) :
    (UnpackedFloat.zero t).compare u.abs = some .lt := by
  cases u with
  | notANumber => cases hu
  | zero t => exact absurd rfl h
  | _ t => rfl

theorem compare_zero_of_eq {u : UnpackedFloat} {s : Sign} (h : u.compare (.zero s) = some .eq) :
    ∃ t, u = .zero t := by
  cases u with
  | zero t => exact ⟨t, rfl⟩
  | notANumber => cases h
  | _ t => cases t <;> cases h

/-- The topmost bit tells on which side of zero a defined double lies. -/
theorem compare_unpack_zero {b : BitVec 64} (hn : (unpack .binary64 b).isNaN = false)
    (h : (unpack .binary64 b).compare (.zero .positive) ≠ some .eq) :
    (unpack .binary64 b).compare (.zero .positive) =
      some (if b.toNat / 2 ^ 63 = 1 then .lt else .gt) := by
  unfold unpack at hn h ⊢
  simp only [ofBitVec_unpackSign] at hn h ⊢
  split_ifs at hn h ⊢ <;> first | rfl | exact absurd rfl h | cases hn

namespace Double

/-- A double that is a number or infinite. -/
def Defined (x : Double) : Prop := x.value.isNaN = false

instance (x : Double) : Decidable x.Defined := inferInstanceAs (Decidable (_ = _))

variable {x y : Double}

theorem not_lt_iff (hx : x.Defined) (hy : y.Defined) : ¬x < y ↔ y ≤ x := by
  change ¬x.value < y.value ↔ y.value ≤ x.value
  have hs := isSome_compare hx hy
  rw [lt_iff_compare, le_iff_compare, compare_swap (parts x.value)]
  obtain ⟨o, ho⟩ := Option.isSome_iff_exists.1 hs
  change (parts x.value).compare (parts y.value) = some o at ho
  rw [ho]
  cases o <;> simp

theorem not_lt_of_lt (h : x < y) : ¬y < x := by
  change ¬y.value < x.value
  have hc := (lt_iff_compare ..).1 h
  rw [lt_iff_compare, compare_swap (parts x.value), hc]
  simp

theorem defined_abs (hx : x.Defined) : x.abs.Defined := by
  change (parts x.value.abs).isNaN = false
  rw [parts_abs]
  change (parts x.value).isNaN = false at hx
  cases hp : parts x.value <;> rw [hp] at hx <;> first | rfl | cases hx

theorem neg_iff : x < 0 ↔ (parts x.value).compare (.zero .positive) = some .lt :=
  lt_iff_compare ..

theorem pos_iff : 0 < x ↔ (parts x.value).compare (.zero .positive) = some .gt := by
  rw [compare_swap (.zero .positive)]
  refine (lt_iff_compare ..).trans ?_
  change (UnpackedFloat.zero .positive).compare (parts x.value) = _ ↔ _
  cases (UnpackedFloat.zero .positive).compare (parts x.value) with
  | none => simp
  | some o => cases o <;> simp

theorem zero_iff : (x == 0) = true ↔ (parts x.value).compare (.zero .positive) = some .eq :=
  beq_iff_compare ..

theorem sign_cases (hx : x.Defined) : x < 0 ∨ (x == 0) = true ∨ 0 < x := by
  have hs := isSome_compare hx (v := .zero .positive) rfl
  rw [neg_iff, zero_iff, pos_iff]
  obtain ⟨o, ho⟩ := Option.isSome_iff_exists.1 hs
  change (parts x.value).compare (.zero .positive) = some o at ho
  rw [ho]
  cases o <;> simp

theorem beq_self (hx : x.Defined) : (x == x) = true :=
  (beq_iff_compare ..).2 (compare_self hx)

theorem abs_lt_abs_of_zero (hx : (x == 0) = true) (hy : y.Defined) (h : ¬(y == 0) = true) :
    x.abs < y.abs := by
  obtain ⟨t, ht⟩ := compare_zero_of_eq (zero_iff.1 hx)
  rw [zero_iff] at h
  refine (lt_iff_compare ..).2 ?_
  change (parts x.value.abs).compare (parts y.value.abs) = _
  rw [parts_abs, parts_abs, ht]
  exact zero_compare_abs hy _ h _

theorem negative_iff (hx : x.Defined) (h : ¬(x == 0) = true) : x.negative = true ↔ x < 0 := by
  have hz : (parts x.value).compare (.zero .positive) ≠ some .eq := fun hc => h (zero_iff.2 hc)
  have hc := compare_unpack_zero (b := x.value.toModel.toBits.toBitVec) hx hz
  change (parts x.value).compare (.zero .positive) = _ at hc
  rw [neg_iff, hc, negative, if_neg (Bool.eq_false_iff.1 hx), isNegative, Bool.and_eq_true,
    beq_iff_eq, hx]
  change x.value.toBits.toNat / 2 ^ 63 = 1 ∧ _ ↔
    some (if x.value.toBits.toNat / 2 ^ 63 = 1 then _ else _) = _
  split_ifs with hs <;> simpa using hs

theorem value_mul (hx : x.Defined) (hy : y.Defined) : (x * y).value = x.value * y.value := by
  change (combine (· * ·) x y).value = _
  rw [combine, if_neg (Bool.eq_false_iff.1 hx), if_neg (Bool.eq_false_iff.1 hy)]

theorem pos_mul_one_iff (hx : x.Defined) : 0 < x * 1 ↔ 0 < x := by
  rw [pos_iff, pos_iff, value_mul hx (y := 1) (by decide)]
  change (parts (x.value * 1)).compare _ = _ ↔ _
  rw [parts_mul_one]

theorem pos_mul_neg_one_iff (hx : x.Defined) : 0 < x * -1 ↔ x < 0 := by
  rw [pos_iff, neg_iff, value_mul hx (y := -1) (by decide)]
  change (parts (x.value * -1)).compare _ = _ ↔ _
  rw [parts_mul_neg_one, neg_compare_zero]
  cases (parts x.value).compare (.zero .positive) with
  | none => simp
  | some o => cases o <;> simp

theorem pos_mul_sign_iff (hx : x.Defined) (hy : y.Defined) (h : ¬(y == 0) = true) :
    0 < x * (if y.negative then -1 else 1) ↔ y < 0 ∧ x < 0 ∨ 0 < y ∧ 0 < x := by
  have hn := negative_iff hy h
  split_ifs with hs
  · have hy0 := hn.1 hs
    rw [pos_mul_neg_one_iff hx]
    simp [hy0, not_lt_of_lt hy0]
  · have hy0 : ¬y < 0 := fun hc => hs (hn.2 hc)
    have hy1 : 0 < y := ((sign_cases hy).resolve_left hy0).resolve_left h
    rw [pos_mul_one_iff hx]
    simp [hy0, hy1]

end Double
end RootFinding.Number
