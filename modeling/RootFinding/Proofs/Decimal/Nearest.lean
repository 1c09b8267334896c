import RootFinding.Decimal.Fixed
import RootFinding.Proofs.Number.Doubles

/-!
# Nearest decimals

A magnitude with a fixed number of decimals counts units of its last place. Their number is a
natural number nearest to the exact magnitude, and the even one where there are two. The digits
without needless zeros in front are determined by it, and so is the text of a double with its sign.
-/
namespace RootFinding.Decimal
open Number

variable {q : ℚ} {m n num den places : ℕ} {ds : List Char}

/-- A natural number nearest to a number, which is even where there are two. -/
structure HalfEven (q : ℚ) (n : ℕ) : Prop where
  le : ∀ m : ℕ, |q - n| ≤ |q - m|
  even : ∀ m : ℕ, m ≠ n → |q - n| = |q - m| → Even n

theorem one_le_abs_sub_add (q : ℚ) (h : m ≠ n) : 1 ≤ |q - m| + |q - n| := by
  have hdist : (1 : ℚ) ≤ |(m : ℚ) - n| := by
    have := Int.one_le_abs (sub_ne_zero.2 (Nat.cast_injective.ne h) : (m : ℤ) - n ≠ 0)
    exact_mod_cast this
  calc (1 : ℚ) ≤ |(m : ℚ) - n| := hdist
    _ = |(q - n) - (q - m)| := by ring_nf
    _ ≤ |q - n| + |q - m| := abs_sub _ _
    _ = |q - m| + |q - n| := add_comm _ _

theorem abs_sub_roundDiv_le (num : ℕ) (hd : 0 < den) :
    |(num / den : ℚ) - roundDiv num den| ≤ 1 / 2 := by
  have hden : (0 : ℚ) < den := by exact_mod_cast hd
  have hup : (2 * (roundDiv num den * den) : ℚ) ≤ 2 * num + den := by
    exact_mod_cast roundDiv_le num den
  have hdown : (2 * num : ℚ) ≤ 2 * (roundDiv num den * den) + den := by
    exact_mod_cast le_roundDiv num hd
  rw [abs_sub_le_iff, sub_le_iff_le_add', sub_le_iff_le_add', div_le_iff₀ hden,
    ← sub_le_iff_le_add, le_div_iff₀ hden]
  constructor <;> linarith

/-- A quotient that differs by half a unit is halfway between two neighbours. -/
theorem two_mul_mod_of_abs_sub (hd : 0 < den) (h : |(num / den : ℚ) - n| = 1 / 2) :
    2 * (num % den) = den := by
  have hden : (den : ℚ) ≠ 0 := by exact_mod_cast hd.ne'
  have hmod : 2 * (num % den) = 2 * num % (2 * den) := (Nat.mul_mod_mul_left ..).symm
  rcases (abs_eq (by norm_num)).1 h with h | h
  · have hnum : 2 * num = den + 2 * den * n := by
      rw [sub_eq_iff_eq_add, div_eq_iff hden] at h
      have : (2 * num : ℚ) = den + 2 * den * n := by rw [h]; ring
      exact_mod_cast this
    rw [hmod, hnum, Nat.add_mul_mod_self_left, Nat.mod_eq_of_lt (by omega)]
  · have hnum : 2 * num + den = 2 * den * n := by
      rw [sub_eq_iff_eq_add, div_eq_iff hden] at h
      have : (2 * num + den : ℚ) = 2 * den * n := by rw [h]; ring
      exact_mod_cast this
    obtain ⟨k, rfl⟩ : ∃ k, n = k + 1 := by
      refine Nat.exists_eq_succ_of_ne_zero fun h0 => ?_
      rw [h0] at hnum
      omega
    have hnum' : 2 * num = den + 2 * den * k := by
      rw [Nat.mul_succ] at hnum
      omega
    rw [hmod, hnum', Nat.add_mul_mod_self_left, Nat.mod_eq_of_lt (by omega)]

theorem halfEven_roundDiv (num : ℕ) (hd : 0 < den) :
    HalfEven (num / den) (roundDiv num den) := by
  have hle := abs_sub_roundDiv_le num hd
  refine ⟨fun m => ?_, fun m hm heq => ?_⟩
  · by_cases hm : m = roundDiv num den
    · rw [hm]
    · have := one_le_abs_sub_add (num / den) hm
      linarith
  · have := one_le_abs_sub_add (num / den) hm
    have hhalf : |(num / den : ℚ) - roundDiv num den| = 1 / 2 := by linarith
    exact Nat.even_iff.2 (even_roundDiv_of_half (two_mul_mod_of_abs_sub hd hhalf))

theorem HalfEven.not_below (hm : HalfEven q m) (hn : HalfEven q n) : ¬m < n := by
  intro hlt
  have heq : |q - m| = |q - n| := le_antisymm (hm.le n) (hn.le m)
  have hgap : m + 2 ≤ n := by
    obtain ⟨i, rfl⟩ := hm.even n hlt.ne' heq
    obtain ⟨j, rfl⟩ := hn.even _ hlt.ne heq.symm
    omega
  have hgap' : (m + 2 : ℚ) ≤ n := by exact_mod_cast hgap
  have hmid : q - m = -(q - n) := by
    refine (abs_eq_abs.1 heq).resolve_left fun h => ?_
    linarith
  have hstep := hm.le (m + 1)
  rw [abs_of_nonneg (by linarith), Nat.cast_add_one, abs_of_nonneg (by linarith)] at hstep
  linarith

theorem HalfEven.unique (hm : HalfEven q m) (hn : HalfEven q n) : m = n :=
  le_antisymm (not_lt.1 (hn.not_below hm)) (not_lt.1 (hm.not_below hn))

theorem padLeft_of_le {width : ℕ} (h : width ≤ ds.length) : padLeft width ds = ds := by
  rw [padLeft, Nat.sub_eq_zero_of_le h, List.replicate_zero, List.nil_append]

theorem head?_padLeft_of_lt {width : ℕ} (h : ds.length < width) :
    (padLeft width ds).head? = some '0' := by
  obtain ⟨k, hk⟩ : ∃ k, width - ds.length = k + 1 := ⟨width - ds.length - 1, by omega⟩
  rw [padLeft, hk]
  rfl

theorem isDigit_of_mem_digits {c : Char} (h : c ∈ digits n) : c.isDigit = true :=
  Nat.isDigit_of_mem_toDigits (by decide) (by decide) h

theorem isDigit_of_mem_padLeft {width : ℕ} {c : Char} (h : c ∈ padLeft width (digits n)) :
    c.isDigit = true := by
  rcases List.mem_append.1 h with hc | hc
  · rw [List.eq_of_mem_replicate hc]
    rfl
  · exact isDigit_of_mem_digits hc

theorem ofDigitChars_padLeft (width n : ℕ) :
    Nat.ofDigitChars 10 (padLeft width (digits n)) 0 = n := by
  rw [padLeft, Nat.ofDigitChars_append, Nat.ofDigitChars_replicate_zero, Nat.mul_zero]
  exact Nat.ofDigitChars_ten_toDigits

theorem digits_append (n : ℕ) {d : ℕ} (hd : d < 10) (hn : 0 < n) :
    digits (10 * n + d) = digits n ++ [d.digitChar] := by
  rw [digits, ← Nat.toDigits_append_toDigits (by decide) hn hd, Nat.toDigits_of_lt_base hd]
  rfl

theorem digitChar_toNat_sub {c : Char} (h : c.isDigit = true) :
    c.toNat - '0'.toNat < 10 ∧ Nat.digitChar (c.toNat - '0'.toNat) = c := by
  have hc : 48 ≤ c.toNat ∧ c.toNat ≤ 57 := Char.isDigit_iff_toNat.1 h
  have hlt : c.toNat - 48 < 10 := by omega
  refine ⟨hlt, Char.toNat_inj.1 ?_⟩
  change (Nat.digitChar (c.toNat - 48)).toNat = c.toNat
  rw [Nat.toNat_digitChar_of_lt_ten hlt]
  omega

theorem padLeft_digits_zero {width : ℕ} (h : 0 < width) :
    padLeft width (digits 0) = List.replicate width '0' := by
  obtain ⟨k, rfl⟩ := Nat.exists_eq_add_one.2 h
  exact List.replicate_succ'.symm

/-- A row of digits is told by its length and the number that it stands for. -/
theorem padLeft_ofDigitChars (hne : ds ≠ []) (hds : ∀ c ∈ ds, c.isDigit = true) :
    padLeft ds.length (digits (Nat.ofDigitChars 10 ds 0)) = ds := by
  induction ds using List.reverseRecOn with
  | nil => exact absurd rfl hne
  | append_singleton init c ih =>
    obtain ⟨hlt, hc⟩ := digitChar_toNat_sub (hds c (by simp))
    have hvalue : Nat.ofDigitChars 10 (init ++ [c]) 0 =
        10 * Nat.ofDigitChars 10 init 0 + (c.toNat - '0'.toNat) := by
      rw [Nat.ofDigitChars_append]
      rfl
    have hlast : digits (c.toNat - '0'.toNat) = [c] := by
      rw [digits, Nat.toDigits_of_lt_base hlt, hc]
    rw [hvalue, List.length_append]
    by_cases hinit : init = []
    · subst hinit
      rw [Nat.ofDigitChars_nil, Nat.mul_zero, Nat.zero_add, hlast]
      rfl
    · have ih := ih hinit fun d hd => hds d (List.mem_append_left _ hd)
      rcases Nat.eq_zero_or_pos (Nat.ofDigitChars 10 init 0) with h0 | hpos
      · rw [h0, padLeft_digits_zero (List.length_pos_of_ne_nil hinit)] at ih
        rw [h0, Nat.mul_zero, Nat.zero_add, hlast]
        exact congrArg (· ++ [c]) ih
      · rw [digits_append _ hlt hpos, hc, padLeft, List.length_append, Nat.add_sub_add_right,
          ← List.append_assoc]
        exact congrArg (· ++ [c]) ih

/-- Parts that stand for a number of units of the last of some decimals: digits without needless
zeros in front. -/
structure Parts.StandsFor (p : Parts) (places n : ℕ) : Prop where
  isDigit : ∀ c ∈ p.whole.toList ++ p.decimals.toList, c.isDigit = true
  whole_ne : p.whole ≠ ""
  no_needless_zero : 1 < p.whole.length → p.whole.toList.head? ≠ some '0'
  length_decimals : p.decimals.length = places
  units : Nat.ofDigitChars 10 (p.whole.toList ++ p.decimals.toList) 0 = n

theorem Parts.StandsFor.length_whole_pos {p : Parts} (h : p.StandsFor places n) :
    0 < p.whole.length := by
  rw [← String.length_toList, List.length_pos_iff]
  exact mt String.toList_eq_nil_iff.1 h.whole_ne

theorem Parts.StandsFor.digits_eq {p : Parts} (h : p.StandsFor places n) :
    p.whole.toList ++ p.decimals.toList = padLeft (places + 1) (digits n) := by
  have hwhole := h.length_whole_pos
  have hlength : (p.whole.toList ++ p.decimals.toList).length = p.whole.length + places := by
    rw [List.length_append, String.length_toList, String.length_toList, h.length_decimals]
  have hne : p.whole.toList ++ p.decimals.toList ≠ [] := List.ne_nil_of_length_pos (by omega)
  have hpad := padLeft_ofDigitChars hne h.isDigit
  rw [h.units, hlength] at hpad
  rcases Nat.lt_or_ge 1 p.whole.length with hlong | hshort
  · have hfull : p.whole.length + places ≤ (digits n).length := by
      by_contra hc
      have hhead := head?_padLeft_of_lt (not_le.1 hc)
      rw [hpad, List.head?_append_of_ne_nil _ (List.ne_nil_of_length_pos
        (by rwa [String.length_toList]))] at hhead
      exact h.no_needless_zero hlong hhead
    rw [← hpad, padLeft_of_le hfull, padLeft_of_le (by omega)]
  · rw [← hpad, show p.whole.length + places = places + 1 by omega]

theorem Parts.StandsFor.unique {p p' : Parts} (h : p.StandsFor places n)
    (h' : p'.StandsFor places n) : p = p' := by
  have heq := h.digits_eq.trans h'.digits_eq.symm
  obtain ⟨hw, hd⟩ := List.append_inj' heq (by
    rw [String.length_toList, String.length_toList, h.length_decimals, h'.length_decimals])
  cases p
  cases p'
  rw [String.toList_inj] at hw hd
  exact congrArg₂ Parts.mk hw hd

/-- The digits of a number have no needless zero in front: without it they would be too few. -/
theorem head?_digits (h : 1 < (digits n).length) : (digits n).head? ≠ some '0' := by
  intro hhead
  obtain ⟨rest, hrest⟩ := List.head?_eq_some_iff.1 hhead
  have hmem : ∀ c ∈ rest, c.isDigit = true := fun c hc =>
    isDigit_of_mem_digits (n := n) (by simp [hrest, hc])
  have hvalue : Nat.ofDigitChars 10 rest 0 = n := by
    have hn := ofDigitChars_padLeft 0 n
    rwa [padLeft_of_le (Nat.zero_le _), hrest] at hn
  have hne : rest ≠ [] := by
    rintro rfl
    rw [hrest] at h
    exact absurd h (lt_irrefl 1)
  have hlength := congrArg List.length (padLeft_ofDigitChars hne hmem)
  rw [hvalue, length_padLeft, hrest, List.length_cons] at hlength
  omega

/-- A magnitude is written in units of its last decimal, rounded. -/
theorem fixed_standsFor (places num den : ℕ) :
    (fixed places num den).StandsFor places (roundDiv (num * 10 ^ places) den) := by
  have hunits : inUnits (-(places : ℤ)) num den = roundDiv (num * 10 ^ places) den := by
    rw [inUnits, neg_neg, Int.toNat_natCast, Int.toNat_of_nonpos (by omega), Nat.pow_eq,
      Nat.pow_eq, Nat.pow_zero, Nat.mul_one]
  have hfixed : fixed places num den =
      let ds := padLeft (places + 1) (digits (roundDiv (num * 10 ^ places) den))
      ⟨String.ofList (ds.take (ds.length - places)),
        String.ofList (ds.drop (ds.length - places))⟩ := by
    rw [fixed, hunits]
  rw [hfixed]
  generalize roundDiv (num * 10 ^ places) den = n
  have hlength := length_padLeft (places + 1) (digits n)
  refine ⟨?_, ?_, ?_, ?_, ?_⟩
  · simp only [String.toList_ofList, List.take_append_drop]
    exact fun c => isDigit_of_mem_padLeft
  · intro hc
    have hlen := congrArg String.length hc
    simp only [String.length_ofList, List.length_take] at hlen
    change _ = 0 at hlen
    omega
  · simp only [String.length_ofList, String.toList_ofList, List.length_take]
    intro hlong
    rw [padLeft_of_le (by omega)] at hlong ⊢
    rw [List.head?_take, if_neg (by omega)]
    exact head?_digits (by omega)
  · simp only [String.length_ofList, List.length_drop]
    omega
  · simp only [String.toList_ofList, List.take_append_drop]
    exact ofDigitChars_padLeft _ _

/-- Characters that are the decimal with some decimals nearest to a double, of two the one with an
even last digit. It has the sign of the double, also where it is zero. -/
def IsNearest (pointed : Bool) (places : ℕ) (x : Double) (cs : List Char) : Prop :=
  ∃ (n : ℕ) (p : Parts), HalfEven (|x.amount| * 10 ^ places) n ∧ p.StandsFor places n ∧
    cs = (if x.negative then ['-'] else []) ++ p.whole.toList ++
      (if pointed then ['.'] else []) ++ p.decimals.toList

variable {x : Double} {pointed : Bool} {cs cs' : List Char} {e : ℤ}

theorem IsNearest.unique (h : IsNearest pointed places x cs) (h' : IsNearest pointed places x cs') :
    cs = cs' := by
  obtain ⟨n, p, hn, hp, rfl⟩ := h
  obtain ⟨n', p', hn', hp', rfl⟩ := h'
  obtain rfl := hn.unique hn'
  rw [hp.unique hp']

theorem IsNearest.mem (h : IsNearest pointed places x cs) :
    ∀ c ∈ cs, c.isDigit = true ∨ c = '-' ∨ c = '.' := by
  obtain ⟨n, p, -, hp, rfl⟩ := h
  intro c hc
  simp only [List.mem_append, or_assoc] at hc
  rcases hc with hc | hc | hc | hc
  · exact .inr (.inl (by split at hc <;> simp_all))
  · exact .inl (hp.isDigit c (List.mem_append_left _ hc))
  · exact .inr (.inr (by split at hc <;> simp_all))
  · exact .inl (hp.isDigit c (List.mem_append_right _ hc))

theorem IsNearest.lt_length (h : IsNearest pointed places x cs) : places < cs.length := by
  obtain ⟨n, p, -, hp, rfl⟩ := h
  have hwhole := hp.length_whole_pos
  have hlength := hp.length_decimals
  simp only [List.length_append, String.length_toList]
  omega

theorem fraction_pos (m : ℕ) (e : ℤ) : 0 < (fraction m e).2 := by
  simp [fraction]

theorem cast_fraction (m : ℕ) (e : ℤ) :
    ((fraction m e).1 / (fraction m e).2 : ℚ) = m * 2 ^ e := by
  simp only [fraction, Nat.pow_eq, Nat.cast_mul, Nat.cast_pow, Nat.cast_ofNat]
  rcases le_total 0 e with he | he
  · rw [Int.toNat_of_nonpos (neg_nonpos.2 he), pow_zero, div_one, ← zpow_natCast,
      Int.toNat_of_nonneg he]
  · rw [Int.toNat_of_nonpos he, pow_zero, mul_one, ← zpow_natCast,
      Int.toNat_of_nonneg (neg_nonneg.2 he), zpow_neg, div_inv_eq_mul]

/-- The exact value of a finite double is its sign, and its magnitude a mantissa times a power. -/
theorem exists_exact (hx : x.Finite) :
    ∃ m e, Exact.ofFloat x.value = .finite x.negative m e ∧ |x.amount| = m * 2 ^ e := by
  have hsign : x.negative = (signOf (parts x.value) == .negative) := by
    rw [Double.negative, if_neg (Bool.eq_false_iff.1 hx.defined), isNegative_eq]
  rw [ofFloat_eq, hsign, Double.amount]
  change (parts x.value).isFinite = true at hx
  cases hp : parts x.value with
  | notANumber => rw [hp] at hx; cases hx
  | infinity s => rw [hp] at hx; cases hx
  | zero s => exact ⟨0, -1074, rfl, by simp⟩
  | finite s m e hm =>
    refine ⟨m, e, rfl, ?_⟩
    rw [Number.amount]
    exact abs_factor_mul s (by positivity)

/-- The parts of a magnitude with decimals are those of the nearest decimal. -/
theorem isNearest_fixed (places : ℕ) {m : ℕ} (h : |x.amount| = m * 2 ^ e) :
    IsNearest pointed places x ((if x.negative then ['-'] else []) ++
      (fixed places (fraction m e).1 (fraction m e).2).whole.toList ++
      (if pointed then ['.'] else []) ++
      (fixed places (fraction m e).1 (fraction m e).2).decimals.toList) := by
  refine ⟨_, _, ?_, fixed_standsFor places _ _, rfl⟩
  have hround := halfEven_roundDiv ((fraction m e).1 * 10 ^ places) (fraction_pos m e)
  rwa [Nat.cast_mul, mul_div_right_comm, cast_fraction, ← h, Nat.cast_pow, Nat.cast_ofNat] at hround

end RootFinding.Decimal
