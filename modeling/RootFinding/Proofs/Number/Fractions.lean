import RootFinding.Proofs.Number.Integers

/-!
# Rounded fractions

A fraction is rounded from its whole part and from what is known of the rest. Shifts lose nothing of
this, so the mantissa of a rounded product, quotient or difference is that of the exact fraction,
rounded once.
-/
namespace RootFinding.Number
open Float.Model (Format UnpackedFloat totalExponent)
open Float.Model.UnpackedFloat hiding abs neg

variable {em : ExtendedMantissa} {num den : Nat}

/-- An extended mantissa keeps of a fraction its whole part, whether the rest is at least a half,
and whether it is neither nothing nor a half. -/
structure Keeps (em : ExtendedMantissa) (num den : Nat) : Prop where
  mantissa : em.mantissa = num / den
  roundBit : em.roundBit = decide (den ≤ 2 * (num % den))
  stickyBit : em.stickyBit = decide (num % den ≠ 0 ∧ 2 * (num % den) ≠ den)

theorem keeps_of_fraction (num : Nat) (hd : 0 < den) :
    Keeps (.ofMantissaAndAccuracy (num / den) (accuracyOfFraction (num % den) den)) num den := by
  have hr := Nat.mod_lt num hd
  unfold accuracyOfFraction
  by_cases h0 : num % den = 0
  · rw [if_pos h0]
    exact ⟨rfl, (decide_eq_false (by omega)).symm, (decide_eq_false (by omega)).symm⟩
  · rw [if_neg h0]
    rcases lt_trichotomy (2 * (num % den)) den with h | h | h
    · rw [Nat.compare_eq_lt.2 h]
      exact ⟨rfl, (decide_eq_false (by omega)).symm, (decide_eq_true (by omega)).symm⟩
    · rw [Nat.compare_eq_eq.2 h]
      exact ⟨rfl, (decide_eq_true (by omega)).symm, (decide_eq_false (by omega)).symm⟩
    · rw [Nat.compare_eq_gt.2 h]
      exact ⟨rfl, (decide_eq_true (by omega)).symm, (decide_eq_true (by omega)).symm⟩

theorem Keeps.shiftRightOne (hd : 0 < den) (h : Keeps em num den) :
    Keeps em.shiftRightOne num (den * 2) := by
  have hr := Nat.mod_lt num hd
  have hmod : num % (den * 2) = num % den + den * (num / den % 2) := Nat.mod_mul
  have hbit := Nat.mod_two_eq_zero_or_one (num / den)
  refine ⟨?_, ?_, ?_⟩
  · rw [← Nat.div_div_eq_div_mul, ← h.mantissa]
    rfl
  · change (em.mantissa % 2 != 0) = _
    rw [h.mantissa, hmod]
    rcases hbit with hb | hb
    · rw [hb, decide_eq_false (by omega)]
      rfl
    · rw [hb, decide_eq_true (by omega)]
      rfl
  · change (em.roundBit || em.stickyBit) = _
    rw [h.roundBit, h.stickyBit, ← Bool.decide_or, hmod]
    apply decide_eq_decide.2
    rcases hbit with hb | hb <;> rw [hb] <;> omega

theorem Keeps.repeat_shiftRightOne (hd : 0 < den) (h : Keeps em num den) (k : Nat) :
    Keeps (Nat.repeat ExtendedMantissa.shiftRightOne k em) num (den * 2 ^ k) := by
  induction k with
  | zero => simpa [Nat.repeat] using h
  | succ k ih =>
    have hpos : 0 < den * 2 ^ k := Nat.mul_pos hd (Nat.two_pow_pos k)
    rw [pow_succ, ← mul_assoc]
    exact ih.shiftRightOne hpos

theorem Keeps.roundedMantissa (hd : 0 < den) (h : Keeps em num den) :
    em.roundedMantissa = roundDiv num den := by
  obtain ⟨q, last, before⟩ := em
  obtain ⟨hq, hlast, hbefore⟩ := h
  dsimp only at hq hlast hbefore
  have hr := Nat.mod_lt num hd
  rw [roundedMantissa_eq, roundDiv, hq, hlast, hbefore]
  simp only [decide_eq_true_iff]
  split_ifs <;> omega

/-- A fraction is below a mantissa more at the exponent that it is shifted to. -/
theorem lt_of_shiftAmount (num : Nat) (hd : 0 < den) (e : Int) :
    num < 2 ^ 53 * (den * 2 ^ shiftAmount (num / den) e) := by
  have hpos : 0 < den * 2 ^ shiftAmount (num / den) e := Nat.mul_pos hd (Nat.two_pow_pos _)
  rw [← Nat.div_lt_iff_lt_mul hpos, ← Nat.div_div_eq_div_mul]
  exact div_shiftAmount_lt ..

/-- Rounding a fraction rounds it to a mantissa at the exponent that it is shifted to, and gives the
next power of two the next exponent. -/
theorem roundWithAccuracy_fraction (s : Sign) (num : Nat) (hd : 0 < den) (e : Int) :
    roundDiv num (den * 2 ^ shiftAmount (num / den) e) = 0 ∧
        roundWithAccuracy .binary64 s (num / den) e (accuracyOfFraction (num % den) den) =
          .zero s ∨
      ∃ m f h, roundWithAccuracy .binary64 s (num / den) e (accuracyOfFraction (num % den) den) =
          .finite s m f h ∧
        (m < 2 ^ 53 ∧ m = roundDiv num (den * 2 ^ shiftAmount (num / den) e) ∧
            f = e + shiftAmount (num / den) e ∨
          roundDiv num (den * 2 ^ shiftAmount (num / den) e) = 2 ^ 53 ∧ m = 2 ^ 52 ∧
            f = e + shiftAmount (num / den) e + 1) := by
  have hpos : 0 < den * 2 ^ shiftAmount (num / den) e := Nat.mul_pos hd (Nat.two_pow_pos _)
  have hle : roundDiv num (den * 2 ^ shiftAmount (num / den) e) ≤ 2 ^ 53 :=
    roundDiv_le_of_le hpos (lt_of_shiftAmount num hd e).le
  have he := le_add_shiftAmount (num / den) e
  have hkeep := ((keeps_of_fraction num hd).repeat_shiftRightOne hd
    (shiftAmount (num / den) e)).roundedMantissa hpos
  have hround : roundWithAccuracy .binary64 s (num / den) e (accuracyOfFraction (num % den) den) =
      let em := shiftToTargetExponent .binary64
        (Nat.repeat ExtendedMantissa.shiftRightOne (shiftAmount (num / den) e)
          (.ofMantissaAndAccuracy (num / den)
            (accuracyOfFraction (num % den) den))).roundedMantissa
        (e + shiftAmount (num / den) e) .exact
      if h : em.1.mantissa = 0 then .zero s
      else .finite s em.1.mantissa em.2 (Nat.pos_of_ne_zero h) := rfl
  rw [hround, hkeep, shiftToTargetExponent_eq, shiftAmount_of_le hle he]
  generalize roundDiv num (den * 2 ^ shiftAmount (num / den) e) = r at *
  generalize e + shiftAmount (num / den) e = f at *
  split_ifs with h
  · subst h
    exact .inr ⟨2 ^ 52, f + 1, by decide, rfl, .inr ⟨rfl, rfl, rfl⟩⟩
  · simp only [Nat.repeat]
    by_cases hr : r = 0
    · exact .inl ⟨hr, dif_pos hr⟩
    · have hlt : r < 2 ^ 53 := Nat.lt_of_le_of_ne hle h
      refine .inr ⟨r, f, Nat.pos_of_ne_zero hr, (dif_neg hr).trans ?_, .inl ⟨hlt, rfl, rfl⟩⟩
      simp

end RootFinding.Number
