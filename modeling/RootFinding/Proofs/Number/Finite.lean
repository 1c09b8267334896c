import RootFinding.Proofs.Number.Rounding

/-!
# Finite doubles

No infinity and no undefined double has a magnitude below anything, and a difference of doubles is
infinite or undefined as soon as one of them is. So a difference whose magnitude is bounded is one
of finite doubles, whatever the bound is. A finite double times zero adds nothing.
-/
namespace RootFinding.Number
open Float.Model (UnpackedFloat)
open Float.Model.UnpackedFloat hiding abs neg

theorem isFinite_of_compare_abs {u v : UnpackedFloat} (h : u.abs.compare v = some .lt) :
    u.isFinite = true := by
  cases u with
  | notANumber => cases h
  | infinity s =>
    cases v with
    | infinity t => cases t <;> cases h
    | _ => cases h
  | zero s => rfl
  | finite s m e hm => rfl

theorem isFinite_of_abs_lt {x y : Float} (h : x.abs < y) : x.isFinite = true := by
  rw [lt_iff_compare, parts_abs] at h
  exact isFinite_of_compare_abs h

theorem isFinite_of_unpack_pack {u : UnpackedFloat}
    (h : (unpack .binary64 (pack .binary64 u)).isFinite = true) : u.isFinite = true := by
  cases u with
  | notANumber =>
    rw [unpack_pack_notANumber] at h
    cases h
  | infinity s =>
    rw [unpack_pack_infinity] at h
    cases h
  | _ => rfl

theorem isFinite_of_sub_parts {u v : UnpackedFloat} (h : (sub .binary64 u v).isFinite = true) :
    u.isFinite = true ∧ v.isFinite = true := by
  cases u with
  | notANumber => cases h
  | infinity s =>
    cases v with
    | infinity t => cases s <;> cases t <;> cases h
    | _ => cases h
  | _ =>
    cases v with
    | notANumber => cases h
    | infinity t => cases h
    | _ => exact ⟨rfl, rfl⟩

theorem isFinite_of_sub {x y : Float} (h : (x - y).isFinite = true) :
    x.isFinite = true ∧ y.isFinite = true :=
  isFinite_of_sub_parts (u := parts x) (v := parts y) (isFinite_of_unpack_pack h)

theorem exists_zero_mul {u : UnpackedFloat} (h : u.isFinite = true) (s : Sign) :
    ∃ t, mul .binary64 (.zero s) u = .zero t := by
  cases u with
  | notANumber => cases h
  | infinity t => cases h
  | zero t => exact ⟨_, rfl⟩
  | finite t m e hm => exact ⟨_, rfl⟩

theorem compare_add_zero {v : UnpackedFloat} (hv : Canonical v) (u : UnpackedFloat) (t : Sign) :
    u.compare (unpack .binary64 (pack .binary64 (add .binary64 v (.zero t)))) = u.compare v := by
  cases v with
  | notANumber => rw [add, unpack_pack_notANumber]
  | infinity s => rw [add, unpack_pack_infinity] <;> simp
  | zero s =>
    have hsum : ∃ r, add .binary64 (.zero s) (.zero t) = .zero r := by
      cases s <;> cases t <;> exact ⟨_, rfl⟩
    obtain ⟨r, hr⟩ := hsum
    rw [hr, unpack_pack_zero]
    cases u with
    | infinity w => cases w <;> rfl
    | finite w => cases w <;> rfl
    | _ => rfl
  | finite s m e hm =>
    rw [add, unpack_pack hv] <;> simp

/-- A sum with a product by zero compares like the other summand. -/
theorem lt_add_zero_mul_iff {m : Float} (hm : m.isFinite = true) (x y : Float) :
    x < y + 0 * m ↔ x < y := by
  obtain ⟨t, ht⟩ := exists_zero_mul (u := parts m) hm .positive
  have hmul : parts (0 * m) = .zero t := by
    change unpack .binary64 (pack .binary64 (mul .binary64 (.zero .positive) (parts m))) = _
    rw [ht, unpack_pack_zero]
  have hadd : parts (y + 0 * m) =
      unpack .binary64 (pack .binary64 (add .binary64 (parts y) (.zero t))) := by
    rw [← hmul]
    rfl
  rw [lt_iff_compare, lt_iff_compare, hadd, compare_add_zero (canonical_parts y)]

theorem isFinite_neg (x : Float) : (-x).isFinite = x.isFinite := by
  change (unpack .binary64 (pack .binary64 (parts x).neg)).isFinite = (parts x).isFinite
  rw [unpack_pack (canonical_neg (canonical_parts x))]
  cases parts x <;> rfl

theorem isFinite_abs (x : Float) : x.abs.isFinite = x.isFinite := by
  change (parts x.abs).isFinite = (parts x).isFinite
  rw [parts_abs]
  cases parts x <;> rfl

end RootFinding.Number
