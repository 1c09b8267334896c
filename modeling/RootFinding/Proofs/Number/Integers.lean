import RootFinding.Proofs.Number.Finite

/-!
# Integers and doubles

An integer rounds to a double unless it lies at least half a step beyond the largest one, and
compares with zero as a double that it is compared with.
-/
namespace RootFinding.Number
open Float.Model (UnpackedFloat)
open Float.Model.UnpackedFloat hiding abs neg

theorem roundDiv_le_of_le {num den bound : Nat} (hd : 0 < den) (h : num ≤ bound * den) :
    roundDiv num den ≤ bound := by
  have hround := roundDiv_le num den
  have hlt : roundDiv num den * (2 * den) < (bound + 1) * (2 * den) := by
    rw [Nat.add_mul, Nat.mul_left_comm, Nat.mul_left_comm bound]
    omega
  exact Nat.le_of_lt_succ (Nat.lt_of_mul_lt_mul_right hlt)

theorem le_roundDiv_of_le {num den bound : Nat} (hd : 0 < den) (h : bound * den ≤ num) :
    bound ≤ roundDiv num den := by
  have hround := le_roundDiv num hd
  have hlt : bound * (2 * den) < (roundDiv num den + 1) * (2 * den) := by
    rw [Nat.add_mul, Nat.mul_left_comm, Nat.mul_left_comm (roundDiv num den)]
    omega
  exact Nat.le_of_lt_succ (Nat.lt_of_mul_lt_mul_right hlt)

/-- The mantissa of a natural number: its first 53 bits, rounded. -/
def naturalMantissa (m : Nat) : Nat := roundDiv (m * 2 ^ (52 - m.log2)) (2 ^ (m.log2 - 52))

theorem nearestBits_one {m : Nat} (hm : m ≠ 0) :
    nearestBits m 1 = min ((m.log2 + 1022) * 2 ^ 52 + naturalMantissa m) infinityBits := by
  have hlow := Nat.log2_self_le hm
  have hden : (1 : Nat).log2 = 0 := by decide
  have hguess : max ((m.log2 : Int) - (0 : Nat) - 53) (-1074) = m.log2 - 53 := by omega
  have hfull : ¬m * 2 ^ (-((m.log2 : Int) - 53)).toNat / (1 * 2 ^ ((m.log2 : Int) - 53).toNat) <
      2 ^ 53 := by
    have hup : (-((m.log2 : Int) - 53)).toNat = 53 - m.log2 := by omega
    have hdown : ((m.log2 : Int) - 53).toNat = m.log2 - 53 := by omega
    rw [hup, hdown, one_mul, Nat.not_lt, Nat.le_div_iff_mul_le (Nat.two_pow_pos _), ← Nat.pow_add]
    calc 2 ^ (53 + (m.log2 - 53)) = 2 ^ m.log2 * 2 ^ (53 - m.log2) := by
          rw [← Nat.pow_add]
          congr 1
          omega
      _ ≤ m * 2 ^ (53 - m.log2) := Nat.mul_le_mul_right _ hlow
  have hexp : (m.log2 : Int) - 53 + 1 = m.log2 - 52 := by omega
  have hup : (-((m.log2 : Int) - 52)).toNat = 52 - m.log2 := by omega
  have hdown : ((m.log2 : Int) - 52).toNat = m.log2 - 52 := by omega
  have hbias : ((m.log2 : Int) - 52 + 1074).toNat = m.log2 + 1022 := by omega
  unfold nearestBits
  rw [if_neg hm]
  simp only [hden, hguess, Nat.pow_eq]
  rw [if_neg hfull, hexp, hup, hdown, hbias, one_mul, naturalMantissa]

theorem naturalMantissa_le {m : Nat} : naturalMantissa m ≤ 2 ^ 53 := by
  refine roundDiv_le_of_le (Nat.two_pow_pos _) (Nat.le_of_lt ?_)
  calc m * 2 ^ (52 - m.log2) < 2 ^ (m.log2 + 1) * 2 ^ (52 - m.log2) :=
        Nat.mul_lt_mul_of_pos_right Nat.lt_log2_self (Nat.two_pow_pos _)
    _ = 2 ^ 53 * 2 ^ (m.log2 - 52) := by
        rw [← Nat.pow_add, ← Nat.pow_add]
        congr 1
        omega

theorem le_naturalMantissa {m : Nat} (hm : m ≠ 0) : 2 ^ 52 ≤ naturalMantissa m := by
  refine le_roundDiv_of_le (Nat.two_pow_pos _) ?_
  calc 2 ^ 52 * 2 ^ (m.log2 - 52) = 2 ^ m.log2 * 2 ^ (52 - m.log2) := by
        rw [← Nat.pow_add, ← Nat.pow_add]
        congr 1
        omega
    _ ≤ m * 2 ^ (52 - m.log2) := Nat.mul_le_mul_right _ (Nat.log2_self_le hm)

/-- A fraction is rounded to less than an even number below the half before it. -/
theorem roundDiv_lt_two_mul_iff (num : Nat) {den j : Nat} (hd : 0 < den) (hj : 0 < j) :
    roundDiv num den < 2 * j ↔ 2 * num < (4 * j - 1) * den := by
  have hle := roundDiv_le num den
  have hge := le_roundDiv num hd
  obtain ⟨i, rfl⟩ : ∃ i, j = i + 1 := ⟨j - 1, by omega⟩
  have hbound : 4 * (i + 1) - 1 = 4 * i + 3 := by omega
  rw [hbound, Nat.add_mul, Nat.mul_assoc]
  constructor
  · intro hlt
    have hmul := Nat.mul_le_mul_right den (by omega : roundDiv num den ≤ 2 * i + 1)
    rw [Nat.add_mul, Nat.mul_assoc] at hmul
    refine lt_of_le_of_ne (by omega) fun heq => ?_
    have hnum : 2 * (num % den) = den := by
      have hfrac : 2 * num = den + 2 * ((2 * i + 1) * den) := by
        rw [heq, Nat.add_mul, Nat.mul_assoc]
        omega
      have hwhole : num / den = 2 * i + 1 := by
        refine Nat.div_eq_of_lt_le ?_ ?_
        · omega
        · rw [Nat.succ_mul]
          omega
      have hdiv := Nat.div_add_mod num den
      rw [hwhole, mul_comm] at hdiv
      omega
    have heven := even_roundDiv_of_half hnum
    have hmul := Nat.mul_le_mul_right den (by omega : roundDiv num den ≤ 2 * i)
    rw [Nat.mul_assoc] at hmul
    omega
  · intro hlt
    refine Nat.lt_of_mul_lt_mul_right (a := den) ?_
    rw [Nat.mul_add, Nat.add_mul, Nat.mul_assoc]
    omega

/-- From half a step below the next power of two on, a natural number is rounded up to it. -/
theorem naturalMantissa_lt_iff {m k : Nat} (h : m.log2 = 53 + k) :
    naturalMantissa m < 2 ^ 53 ↔ m < (2 ^ 54 - 1) * 2 ^ k := by
  have hup : 52 - (53 + k) = 0 := by omega
  have hdown : 53 + k - 52 = k + 1 := by omega
  have hiff := roundDiv_lt_two_mul_iff m (Nat.two_pow_pos (k + 1)) (Nat.two_pow_pos 52)
  rw [naturalMantissa, h, hup, hdown, pow_zero, mul_one]
  rw [pow_succ' 2 k] at hiff ⊢
  omega

theorem nearestBits_lt_iff (m : Nat) :
    nearestBits m 1 < infinityBits ↔ m < (2 ^ 54 - 1) * 2 ^ 970 := by
  obtain ⟨k, hk⟩ : ∃ k, k = 970 := ⟨_, rfl⟩
  rw [← hk]
  have hpos := Nat.two_pow_pos k
  rcases eq_or_ne m 0 with rfl | hm
  · exact iff_of_true (by decide) (by positivity)
  have hbits : infinityBits = 2047 * 2 ^ 52 := by decide
  have hle := @naturalMantissa_le m
  have hge := le_naturalMantissa hm
  rw [nearestBits_one hm, min_lt_iff, or_iff_left (lt_irrefl _), hbits]
  rcases lt_trichotomy m.log2 (53 + k) with h | h | h
  · have hlt := (Nat.log2_lt hm).1 h
    rw [Nat.pow_add] at hlt
    exact iff_of_true (by omega) (by omega)
  · rw [← naturalMantissa_lt_iff h]
    omega
  · have hlt : 2 ^ (54 + k) ≤ m := (Nat.le_log2 hm).1 (by omega)
    rw [Nat.pow_add] at hlt
    exact iff_of_false (by omega) (by omega)

theorem ofInt?_eq_none_iff (n : Int) : ofInt? n = none ↔ (2 ^ 54 - 1) * 2 ^ 970 ≤ n.natAbs := by
  rw [← not_lt, ← nearestBits_lt_iff]
  unfold ofInt?
  split_ifs with h
  · exact iff_of_false nofun (not_not_intro h)
  · exact iff_of_true rfl h

theorem parts_ofBits (b : UInt64) : parts (.ofBits b) = unpack .binary64 b.toBitVec :=
  unpack_pack (canonical_unpack _)

theorem ofBits_pos {b : Nat} (h0 : 0 < b) (h : b < infinityBits) : 0 < Float.ofBits b.toUInt64 := by
  have hbits : infinityBits = 2047 * 2 ^ 52 := by decide
  have hb : b.toUInt64.toBitVec.toNat = b := by
    change b % 2 ^ 64 = b
    omega
  have hexact := ofBits_eq b.toUInt64.toBitVec
  have hsign : b / 2 ^ 63 % 2 = 0 := by omega
  have hexp : b / 2 ^ 52 % 2 ^ 11 = b / 2 ^ 52 := by omega
  have hzero : parts 0 = .zero .positive := rfl
  rw [hb] at hexact
  unfold Exact.ofBits at hexact
  simp only [Nat.pow_eq, hsign, hexp] at hexact
  rw [if_neg (by omega)] at hexact
  rw [lt_iff_compare, hzero, parts_ofBits]
  cases hu : unpack .binary64 b.toUInt64.toBitVec with
  | notANumber => rw [hu] at hexact; split at hexact <;> cases hexact
  | infinity s => rw [hu] at hexact; split at hexact <;> cases hexact
  | zero s =>
    rw [hu] at hexact
    split at hexact
    · have hm := (Exact.finite.inj hexact).2.1
      omega
    · have hm := (Exact.finite.inj hexact).2.1
      omega
  | finite s m e hm =>
    rw [hu] at hexact
    cases s with
    | positive => rfl
    | negative => split at hexact <;> cases (Exact.finite.inj hexact).1

theorem pos_of_ofInt? {n : Int} {x : Float} (hn : 0 < n) (h : ofInt? n = some x) : 0 < x := by
  have hm : n.natAbs ≠ 0 := by omega
  have hbits : infinityBits = 2047 * 2 ^ 52 := by decide
  unfold ofInt? at h
  split_ifs at h with hlt
  cases h
  have hneg : decide (n < 0) = false := decide_eq_false (by omega)
  rw [hneg]
  refine ofBits_pos ?_ hlt
  rw [nearestBits_one hm]
  omega

/-- Bit patterns below that of infinity are those of finite doubles. -/
theorem isFinite_ofBits {b : Nat} (h : b < infinityBits) :
    (Float.ofBits b.toUInt64).isFinite = true := by
  have hbits : infinityBits = 2047 * 2 ^ 52 := by decide
  have hb : b.toUInt64.toBitVec.toNat = b := by
    change b % 2 ^ 64 = b
    omega
  have hexact := ofBits_eq b.toUInt64.toBitVec
  have hexp : b / 2 ^ 52 % 2 ^ 11 ≠ 2047 := by omega
  rw [hb] at hexact
  unfold Exact.ofBits at hexact
  simp only [Nat.pow_eq] at hexact
  rw [if_neg hexp] at hexact
  change (parts (Float.ofBits b.toUInt64)).isFinite = true
  rw [parts_ofBits]
  cases hu : unpack .binary64 b.toUInt64.toBitVec with
  | notANumber => rw [hu] at hexact; split at hexact <;> cases hexact
  | infinity s => rw [hu] at hexact; split at hexact <;> cases hexact
  | zero s => rfl
  | finite s m e hm => rfl

/-- Integers that do not lie beyond the doubles are finite as such. -/
theorem isFinite_nearest {n : Int} (h : n.natAbs < (2 ^ 54 - 1) * 2 ^ 970) (negative : Bool) :
    (nearest negative n.natAbs 1).isFinite = true := by
  have hbits := isFinite_ofBits ((nearestBits_lt_iff n.natAbs).2 h)
  unfold nearest
  cases negative with
  | false => exact hbits
  | true => rwa [if_pos rfl, isFinite_neg]

theorem compareExact_zero_iff {negative : Bool} {m : Nat} {e : Int} :
    compareExact 0 negative m e = .lt ↔ 0 < m ∧ negative = false := by
  have hpow : (0 : Int) < (2 : Nat) ^ e.toNat := by positivity
  unfold compareExact
  dsimp only
  rw [Int.compare_eq_lt, Nat.pow_eq, Nat.pow_eq, zero_mul, Nat.cast_pow, mul_pos_iff_of_pos_right hpow]
  cases negative with
  | false => simp
  | true => simp

theorem compareInt_zero_iff (x : Float) : compareInt 0 x = some .lt ↔ 0 < x := by
  have hzero : parts 0 = .zero .positive := rfl
  rw [lt_iff_compare, hzero, compareInt, ofFloat_eq]
  cases parts x with
  | notANumber => exact iff_of_false (fun h => by cases h) (fun h => by cases h)
  | infinity s => cases s <;> decide
  | zero s =>
    simp only [exactOf, Option.some_inj, compareExact_zero_iff]
    exact iff_of_false (fun h => h.1.false) (fun h => by cases h)
  | finite s m e hm =>
    simp only [exactOf, Option.some_inj, compareExact_zero_iff]
    cases s with
    | positive => exact iff_of_true ⟨hm, rfl⟩ rfl
    | negative => exact iff_of_false (fun h => by cases h.2) (fun h => by cases h)

end RootFinding.Number
