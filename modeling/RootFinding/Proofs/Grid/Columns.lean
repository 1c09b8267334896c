import RootFinding.Grid.FloatText
import RootFinding.Proofs.Decimal.Nearest
import RootFinding.Proofs.Grid.Items

/-!
# Columns of doubles below a hundred million

Finite doubles of which none is too large are written with a fixed number of decimals, each with as
many blanks in front as its column needs. The column is as wide as the longest of the nearest
decimals, and one character wider where none of the doubles is negative.
-/
namespace RootFinding.Layout
open Number Decimal

variable {places : ℕ} {x : Double} {xs : List Double} {cs : List Char}

theorem foldl_max_le_iff {ns : List ℕ} {a b : ℕ} :
    ns.foldl max a ≤ b ↔ a ≤ b ∧ ∀ n ∈ ns, n ≤ b := by
  induction ns generalizing a with
  | nil => simp
  | cons n ns ih => rw [List.foldl_cons, ih, max_le_iff, List.forall_mem_cons, and_assoc]

theorem longest_le_iff {ns : List ℕ} {b : ℕ} : longest ns ≤ b ↔ ∀ n ∈ ns, n ≤ b := by
  rw [longest, foldl_max_le_iff, and_iff_right (Nat.zero_le b)]

theorem le_longest {ns : List ℕ} {n : ℕ} (h : n ∈ ns) : n ≤ longest ns :=
  longest_le_iff.1 le_rfl n h

theorem longest_map_eq {α : Type} {f : α → ℕ} {n : ℕ} {l : List α} (hne : l ≠ [])
    (h : ∀ a ∈ l, f a = n) : longest (l.map f) = n := by
  refine le_antisymm (longest_le_iff.2 (List.forall_mem_map.2 fun a ha => (h a ha).le)) ?_
  obtain ⟨a, ha⟩ := List.exists_mem_of_ne_nil l hne
  exact (h a ha).ge.trans (le_longest (List.mem_map_of_mem ha))

theorem foldl_mem {α : Type} {f : α → α → α} (h : ∀ a b, f a b = a ∨ f a b = b) (a : α)
    (rest : List α) : rest.foldl f a ∈ a :: rest := by
  induction rest generalizing a with
  | nil => exact List.mem_cons_self
  | cons b rest ih =>
    rw [List.foldl_cons]
    rcases h a b with hab | hab
    · rw [hab]
      exact List.cons_subset_cons a (List.subset_cons_self b rest) (ih a)
    · rw [hab]
      exact List.mem_cons_of_mem a (ih b)

/-- A finite double below a hundred million in magnitude. -/
def Moderate (x : Double) : Prop := x.Finite ∧ |x.amount| < 10 ^ 8

theorem amount_hundred_million : (Double.ofFloat 1e8).amount = 10 ^ 8 := by
  have h : parts (Double.ofFloat 1e8).value =
    .finite .positive (10 ^ 8 * 2 ^ 26) (-26) (by decide) := rfl
  rw [Double.amount, h, Number.amount, factor]
  norm_num

theorem Moderate.not_le_abs (hx : Moderate x) : ¬(1e8 : Float) ≤ x.value.abs := by
  have hle := Double.le_iff_amount (x := .ofFloat 1e8) (y := x.abs) rfl (Double.finite_abs.2 hx.1)
  rw [Double.amount_abs, amount_hundred_million] at hle
  exact fun h => (hle.1 h).not_gt hx.2

theorem usesExponent_aligned (h : ∀ x ∈ xs, Moderate x) :
    usesExponent (.aligned places) (xs.map (·.value)) = false := by
  rw [usesExponent, magnitudes]
  split
  · rfl
  · rename_i largest smallest heq
    split at heq
    · cases heq
    · rename_i first rest hlist
      cases heq
      have hlargest := foldl_mem (fun m y : Float => ite_eq_or_eq (m < y) y m |>.symm) first rest
      rw [← hlist] at hlargest
      obtain ⟨f, hf, habs⟩ := List.mem_map.1 hlargest
      obtain ⟨x, hx, rfl⟩ := List.mem_map.1 (List.mem_of_mem_filter hf)
      rw [← habs, decide_eq_false (h x hx).not_le_abs]
      rfl

/-- The parts of a finite double with some decimals, no more than a number may have characters. -/
def written (places : ℕ) (x : Double) : Parts :=
  match finite? x.value with
  | some (_, m, e) => positional (.aligned places) m e
  | none => ⟨"", ""⟩

def front (places : ℕ) (x : Double) : String :=
  Lead.nothing.sign x.negative ++ (written places x).whole

theorem exists_written (places : ℕ) (hx : x.Finite) :
    ∃ m e, Exact.ofFloat x.value = .finite x.negative m e ∧ |x.amount| = m * 2 ^ e ∧
      finite? x.value = some (x.negative, m, e) ∧ written places x =
        fixed (min places maximalWord) (fraction m e).1 (fraction m e).2 := by
  obtain ⟨m, e, hexact, hamount⟩ := exists_exact hx
  have hfinite : finite? x.value = some (x.negative, m, e) := by rw [finite?, hexact]
  refine ⟨m, e, hexact, hamount, hfinite, ?_⟩
  rw [written, hfinite]
  rfl

theorem length_decimals_written (places : ℕ) (hx : x.Finite) :
    (written places x).decimals.length = min places maximalWord := by
  obtain ⟨m, e, -, -, -, hw⟩ := exists_written places hx
  rw [hw]
  exact (fixed_standsFor _ _ _).length_decimals

theorem isNearest_written (places : ℕ) (hx : x.Finite) :
    IsNearest true (min places maximalWord) x
      ((front places x).toList ++ '.' :: (written places x).decimals.toList) := by
  obtain ⟨m, e, -, hamount, -, hw⟩ := exists_written places hx
  have hnearest : IsNearest true _ x _ := isNearest_fixed (min places maximalWord) hamount
  have hsign : (Lead.nothing.sign x.negative).toList = if x.negative then ['-'] else [] := by
    cases x.negative <;> rfl
  rw [front, hw, String.toList_append, hsign]
  rwa [if_pos rfl, List.append_assoc _ ['.']] at hnearest

def positionals (style : FloatStyle) (shown : List Float) : List (Bool × Pieces) :=
  (shown.filterMap finite?).map fun (negative, m, e) =>
    (negative, ⟨(positional style m e).whole, (positional style m e).decimals, 0⟩)

theorem positionals_aligned (places : ℕ) (h : ∀ x ∈ xs, x.Finite) :
    positionals (.aligned places) (xs.map (·.value)) =
      xs.map fun x => (x.negative, ⟨(written places x).whole, (written places x).decimals, 0⟩) := by
  rw [positionals, List.map_filterMap, List.filterMap_map, ← List.filterMap_eq_map]
  refine List.filterMap_congr fun x hx => ?_
  obtain ⟨m, e, -, -, hfinite, -⟩ := exists_written places (h x hx)
  simp only [Function.comp_apply, hfinite, Option.map_some, written]

theorem fit_positional {style : FloatStyle} {shown : List Float} {parts : List (Bool × Pieces)}
    (hfinite : shown.filter Float.isFinite = shown) (hexponent : usesExponent style shown = false)
    (hparts : positionals style shown = parts) :
    Columns.fit style shown =
      let left := longest (parts.map fun p => (if p.1 then 1 else 0) + p.2.whole.length)
      let right := longest (parts.map fun p => p.2.decimals.length)
      ⟨false, if style.signColumn && !parts.any (·.1) then left + 1 else left, right, right,
        longest (parts.map fun p => max 2 (digits p.2.exponent.natAbs).length)⟩ := by
  subst hparts
  simp only [Columns.fit, hfinite, hexponent, if_true, Bool.false_eq_true, if_false]
  rfl

def frontWidth (places : ℕ) (xs : List Double) : ℕ :=
  longest (xs.map fun x => (front places x).length) + (if xs.any (·.negative) then 0 else 1)

theorem length_front (places : ℕ) (x : Double) :
    (front places x).length = (if x.negative then 1 else 0) + (written places x).whole.length := by
  rw [front, String.length_append]
  cases x.negative <;> rfl

theorem fit_aligned (places : ℕ) (hne : xs ≠ []) (h : ∀ x ∈ xs, Moderate x) :
    ∃ exponentDigits, Columns.fit (.aligned places) (xs.map (·.value)) =
      ⟨false, frontWidth places xs, min places maximalWord, min places maximalWord,
        exponentDigits⟩ := by
  have hfinite : (xs.map (·.value)).filter Float.isFinite = xs.map (·.value) :=
    List.filter_eq_self.2 (List.forall_mem_map.2 fun x hx => (h x hx).1)
  have hright : longest (xs.map fun x => (written places x).decimals.length) =
      min places maximalWord :=
    longest_map_eq hne fun x hx => length_decimals_written places (h x hx).1
  rw [fit_positional hfinite (usesExponent_aligned h)
    (positionals_aligned places fun x hx => (h x hx).1)]
  simp only [List.map_map, List.any_map, Function.comp_def, hright, ← length_front]
  have hleft : (if (FloatStyle.aligned places).signColumn && !xs.any (·.negative) then
      longest (xs.map fun x => (front places x).length) + 1
      else longest (xs.map fun x => (front places x).length)) = frontWidth places xs := by
    rw [frontWidth]
    cases xs.any (·.negative) <;> rfl
  rw [hleft]
  exact ⟨_, rfl⟩

theorem length_front_le (places : ℕ) (hx : x ∈ xs) :
    (front places x).length + (if xs.any (·.negative) then 0 else 1) ≤ frontWidth places xs := by
  have hle : (front places x).length ≤ longest (xs.map fun x => (front places x).length) :=
    le_longest (List.mem_map_of_mem hx)
  exact Nat.add_le_add_right hle _

theorem exists_frontWidth_eq (places : ℕ) (hne : xs ≠ []) :
    ∃ x ∈ xs, frontWidth places xs =
      (front places x).length + (if xs.any (·.negative) then 0 else 1) := by
  obtain ⟨first, rest, rfl⟩ := List.exists_cons_of_ne_nil hne
  have hmem : longest ((first :: rest).map fun x => (front places x).length) ∈
      (first :: rest).map fun x => (front places x).length := by
    have hfold := foldl_mem (fun a b : ℕ => max_choice a b) (front places first).length
      (rest.map fun x => (front places x).length)
    rwa [longest, List.map_cons, List.foldl_cons, Nat.zero_max]
  obtain ⟨x, hx, heq⟩ := List.mem_map.1 hmem
  exact ⟨x, hx, by rw [frontWidth, ← heq]⟩

/-- Whether the nearest decimals of some doubles are not too long, with a column for the sign where
none of them is negative. -/
def HasRoom (places : ℕ) (xs : List Double) : Prop :=
  ∀ x ∈ xs, ∀ cs, IsNearest true places x cs →
    cs.length + (if xs.any (·.negative) then 0 else 1) ≤ maximalWord

theorem length_written (places : ℕ) (hx : x.Finite) :
    ((front places x).toList ++ '.' :: (written places x).decimals.toList).length =
      (front places x).length + 1 + min places maximalWord := by
  rw [List.length_append, List.length_cons, String.length_toList, String.length_toList,
    length_decimals_written places hx, Nat.add_right_comm, Nat.add_assoc]

theorem HasRoom.places_lt (h : HasRoom places xs) (hne : xs ≠ []) (hfinite : ∀ x ∈ xs, x.Finite) :
    places < maximalWord := by
  obtain ⟨x, hx⟩ := List.exists_mem_of_ne_nil xs hne
  obtain ⟨m, e, -, hamount⟩ := exists_exact (hfinite x hx)
  have hnearest : IsNearest true places x _ := isNearest_fixed places hamount
  exact hnearest.lt_length.trans_le ((Nat.le_add_right _ _).trans (h x hx _ hnearest))

theorem fits_aligned_iff (places : ℕ) (hne : xs ≠ []) (h : ∀ x ∈ xs, Moderate x) :
    (Columns.fit (.aligned places) (xs.map (·.value))).fits = true ↔ HasRoom places xs := by
  obtain ⟨exponentDigits, hfit⟩ := fit_aligned places hne h
  rw [hfit, Columns.fits, Bool.false_or, decide_eq_true_iff]
  change frontWidth places xs + 1 + min places maximalWord ≤ maximalWord ↔ _
  constructor
  · intro hfits x hx cs hcs
    have hplaces : min places maximalWord = places := by omega
    have hnearest := isNearest_written places (h x hx).1
    have hlength := length_written places (h x hx).1
    have hfront := length_front_le places hx
    rw [hplaces] at hnearest hlength hfits
    rw [hcs.unique hnearest, hlength]
    omega
  · intro hroom
    have hplaces := hroom.places_lt hne fun x hx => (h x hx).1
    obtain ⟨x, hx, hwidth⟩ := exists_frontWidth_eq places hne
    have hlength := length_written places (h x hx).1
    have hnearest := isNearest_written places (h x hx).1
    rw [min_eq_left hplaces.le] at hnearest hlength ⊢
    have hle := hroom x hx _ hnearest
    omega

/-- A double in its column: blanks, and the nearest decimal behind them. -/
theorem toList_cell (hne : xs ≠ []) (h : ∀ x ∈ xs, Moderate x) (hx : x ∈ xs) :
    ((Columns.fit (.aligned places) (xs.map (·.value))).cell (.aligned places) x.value).toList =
      List.replicate (frontWidth places xs - (front places x).length) ' ' ++
        ((front places x).toList ++ '.' :: (written places x).decimals.toList) := by
  obtain ⟨exponentDigits, hfit⟩ := fit_aligned places hne h
  obtain ⟨m, e, hexact, -, hfinite, -⟩ := exists_written places (h x hx).1
  have hdecimals := length_decimals_written places (h x hx).1
  have hpositional : positional (.aligned places) m e = written places x := by
    rw [written, hfinite]
  rw [hfit, Columns.cell, hexact]
  simp only [Bool.false_eq_true, if_false, hpositional]
  change (padStart (frontWidth places xs) (front places x) ++ "." ++
    padEnd (min places maximalWord) (written places x).decimals).toList = _
  simp only [padStart, padEnd, hdecimals, Nat.sub_self, blanks, String.toList_append,
    String.toList_ofList, List.replicate_zero, List.append_nil, List.append_assoc]
  rfl

/-- What a decimal consists of is neither blank nor sets words apart. -/
theorem plain_of_mem_isNearest {pointed : Bool} (h : IsNearest pointed places x cs) {c : Char}
    (hc : c ∈ cs) : c ≠ ',' ∧ isInside c = true ∧ Text.isAsciiBlank c = false := by
  rcases h.mem c hc with hdigit | rfl | rfl
  · have hne (d : Char) (hd : d.isDigit = false) : c ≠ d := by
      rintro rfl
      rw [hdigit] at hd
      cases hd
    have hrange : 48 ≤ c.toNat ∧ c.toNat ≤ 57 := Char.isDigit_iff_toNat.1 hdigit
    refine ⟨hne _ rfl, ?_, ?_⟩
    · simp [isInside, hne '[' rfl, hne ']' rfl, hne '\n' rfl]
    · simp only [Text.isAsciiBlank, Bool.or_eq_false_iff, beq_eq_false_iff_ne,
        Bool.and_eq_false_iff, decide_eq_false_iff_not]
      exact ⟨hne ' ' rfl, .inr (by omega)⟩
  · decide
  · decide

theorem isWord_of_isNearest {pointed : Bool} (h : IsNearest pointed places x cs) (k : ℕ) :
    IsWord (List.replicate k ' ' ++ cs) ∧
      Decimal.trimBlanks (List.replicate k ' ' ++ cs) = cs := by
  have htrim := trimBlanks_replicate_append k fun c hc => (plain_of_mem_isNearest h hc).2.2
  refine ⟨⟨fun hc => ?_, fun c hc => ?_, ?_⟩, htrim⟩
  · rcases List.mem_append.1 hc with hc | hc
    · exact absurd (List.eq_of_mem_replicate hc) (by decide)
    · exact (plain_of_mem_isNearest h hc).1 rfl
  · rcases List.mem_append.1 hc with hc | hc
    · rw [List.eq_of_mem_replicate hc]
      rfl
    · exact (plain_of_mem_isNearest h hc).2.1
  · rw [htrim]
    exact List.ne_nil_of_length_pos (Nat.zero_lt_of_lt h.lt_length)

def alignedWords (places : ℕ) (xs : List Double) : List (List Char) :=
  xs.map fun x =>
    ((Columns.fit (.aligned places) (xs.map (·.value))).cell (.aligned places) x.value).toList

theorem isWord_of_mem_alignedWords (h : ∀ x ∈ xs, Moderate x) :
    ∀ w ∈ alignedWords places xs, IsWord w := by
  refine List.forall_mem_map.2 fun x hx => ?_
  rw [toList_cell (List.ne_nil_of_mem hx) h hx]
  exact (isWord_of_isNearest (isNearest_written places (h x hx).1) _).1

/-- Where there is room, a word is the nearest decimal behind blanks. -/
theorem forall₂_alignedWords (h : ∀ x ∈ xs, Moderate x) (hroom : HasRoom places xs) :
    List.Forall₂ (fun x w => IsNearest true places x (Decimal.trimBlanks w)) xs
      (alignedWords places xs) := by
  rw [alignedWords, List.forall₂_map_right_iff, List.forall₂_same]
  intro x hx
  have hne := List.ne_nil_of_mem hx
  have hplaces := hroom.places_lt hne fun x hx => (h x hx).1
  have hnearest := isNearest_written places (h x hx).1
  rw [min_eq_left hplaces.le] at hnearest
  rw [toList_cell hne h hx, (isWord_of_isNearest hnearest _).2]
  exact hnearest

theorem length_of_mem_alignedWords (h : ∀ x ∈ xs, Moderate x) :
    ∀ w ∈ alignedWords places xs, w.length = frontWidth places xs + 1 + min places maximalWord := by
  refine List.forall_mem_map.2 fun x hx => ?_
  have hfront := length_front_le places hx
  rw [toList_cell (List.ne_nil_of_mem hx) h hx, List.length_append, List.length_replicate,
    length_written places (h x hx).1]
  omega

end RootFinding.Layout
