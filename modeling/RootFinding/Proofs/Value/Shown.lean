import RootFinding.Proofs.Grid.Columns
import RootFinding.Proofs.Value.Leaves
import RootFinding.Value.Aligned

/-!
# Lists of doubles as texts

A list of up to a thousand doubles that are not too large is shown with a fixed number of decimals:
every element in order, correctly rounded, in columns of one width and lines of the usual length. A
number alone is refused only where there are too many decimals to write, and several only where one
of them has more characters than a number may have.
-/
namespace RootFinding.Aligned
open Number Decimal Layout

variable {places : ℕ} {x : Double} {xs : List Double}

theorem foldlM_digit {ds : List Char} (h : ∀ c ∈ ds, c.isDigit = true) (n : ℕ) :
    ds.foldlM (fun n c =>
      if c.isDigit then some (10 * n + (c.toNat - '0'.toNat))
      else (Text.wideDigit? c).map fun d => 10 * n + d) n = some (Nat.ofDigitChars 10 ds n) := by
  induction ds generalizing n with
  | nil => rfl
  | cons c ds ih =>
    obtain ⟨hc, hds⟩ := List.forall_mem_cons.1 h
    rw [List.foldlM_cons, if_pos hc]
    exact ih hds _

theorem precision_natCast (n : ℕ) :
    precision (.int n) = if n ≤ Value.maximalLength then .ok n else .error .badPrecision := by
  have hplaces : places? (Value.int n).shown = some n := by
    change places? n.repr = some n
    have hdigits : ∀ c ∈ Nat.toDigits 10 n, c.isDigit = true := fun c => isDigit_of_mem_digits
    rw [places?, Nat.toList_repr, foldlM_digit hdigits, Nat.ofDigitChars_ten_toDigits]
  rw [precision, hplaces]

theorem ofLeaves_map_real (xs : List Double) : Kind.ofLeaves (xs.map .real) = .real := by
  cases xs with
  | nil => rfl
  | cons x xs =>
    induction xs with
    | nil => rfl
    | cons y xs ih => exact ih

def vector (xs : List Double) : Grid Float := (Grid.vector xs).map (·.value)

theorem ofValue_list_real (xs : List Double) :
    Typed.ofValue (.list (xs.map .real)) = .ok (.real (vector xs)) := by
  rw [Typed.ofValue, Value.toLeaves_list_map (f := .real) (fun _ => ⟨rfl, rfl⟩)]
  change Except.ok (Typed.ofKind (.ofLeaves (xs.map .real)) _) = _
  rw [ofLeaves_map_real, Typed.ofKind]
  simp [vector, Grid.map, Grid.vector, Function.comp_def, Typed.double]

theorem pieces_one {α : Type} (xs : List α) :
    Grid.pieces 1 xs.length xs = xs.map fun x => [x] := by
  induction xs with
  | nil => rfl
  | cons x xs ih =>
    rw [List.length_cons, Grid.pieces, List.map_cons, ← ih]
    rfl

theorem shown_vector (hsize : xs.length ≤ threshold) : shown (vector xs) = xs.map (·.value) := by
  have hshort : decide (threshold < (vector xs).size) = false := by
    simpa [vector, Grid.size, Grid.map, Grid.vector] using hsize
  have hpieces : Grid.pieces (extent []) xs.length (xs.map (·.value)) =
      (xs.map (·.value)).map fun f => [f] := by
    rw [← pieces_one, List.length_map]
    rfl
  rw [shown, hshort]
  change shownEntries false [xs.length] (xs.map (·.value)) = _
  rw [shownEntries, hpieces]
  change (((xs.map (·.value)).map fun f => [f]).map fun ys => ys).flatten = _
  rw [List.map_id', ← List.flatMap_def, List.flatMap_singleton']

theorem number_real (places : ℕ) (x : Double) :
    number (.real x) { places := .int places } =
      if places ≤ maximalPlaces then .ok (fixedText .blank places x.value)
      else .error .badPrecision := by
  have hnumber : number (.real x) { places := .int places } = (do
      let n ← precision (.int places)
      let value ← (Value.real x).toFloat
      if n ≤ maximalPlaces then return fixedText .blank n value else throw .badPrecision) := rfl
  rw [hnumber, precision_natCast]
  by_cases hlength : places ≤ Value.maximalLength
  · rw [if_pos hlength]
    rfl
  · have hlimit : maximalPlaces ≤ Value.maximalLength := by decide
    rw [if_neg hlength, if_neg fun h => hlength (h.trans hlimit)]
    rfl

theorem value_single (places : ℕ) (x : Double) :
    value (.list [.real x]) { places := .int places } =
      if places ≤ maximalPlaces then .ok (fixedText .blank places x.value)
      else .error .badPrecision := by
  have hread := ofValue_list_real [x]
  rw [List.map_singleton] at hread
  rw [value, hread]
  exact number_real places (.ofFloat x.value)

theorem value_several (places : ℕ) (h2 : 2 ≤ xs.length) (hsize : xs.length ≤ threshold)
    (h : ∀ x ∈ xs, Moderate x) :
    value (.list (xs.map .real)) { places := .int places } =
      if maximalPlaces < places then .error .tooLarge
      else if (Columns.fit (.aligned places) (xs.map (·.value))).fits then
        .ok (columns (floatWords (.aligned places) (vector xs)))
      else .error .tooWide := by
  have hvalue : value (.list (xs.map .real)) { places := .int places } =
      (words places (.real (vector xs))).map columns := by
    rw [value, ofValue_list_real]
    match xs, h2 with
    | x :: y :: xs, _ => rfl
  have hempty : (vector xs).size ≠ 0 := by
    change ((xs.map (·.value)).length) ≠ 0
    rw [List.length_map]
    omega
  have hany : (shown (vector xs)).any Float.isFinite = true := by
    obtain ⟨x, hx⟩ := List.exists_mem_of_length_pos (l := xs) (by omega)
    rw [shown_vector hsize, List.any_map, List.any_eq_true]
    exact ⟨x, hx, (h x hx).1⟩
  rw [hvalue, words, if_neg hempty, if_neg (not_lt.2 (Int.natCast_nonneg places)), hany,
    shown_vector hsize, Bool.and_true, Int.toNat_natCast]
  simp only [decide_eq_true_iff, Nat.cast_lt]
  split
  · rfl
  · split <;> rfl

/-- What a text shows of some doubles: each of them in order as the nearest decimal. Several have a
point in any case, and one pair of brackets; their items are equally wide, and each but the first
stands behind a blank. Lines are no longer than usual unless they hold a single item. -/
structure Shows (places : ℕ) (xs : List Double) (text : String) : Prop where
  brackets : ∃ inner : List Char, '[' ∉ inner ∧ ']' ∉ inner ∧
    text.toList = if xs.length = 1 then inner else '[' :: (inner ++ [']'])
  nearest : List.Forall₂
    (fun x item => IsNearest (0 < places || 2 ≤ xs.length) places x (trimBlanks item))
    xs (items text.toList)
  separated : ∀ item ∈ (items text.toList).tail, item.head? = some ' '
  aligned : 2 ≤ xs.length → ∃ width, ∀ cell ∈ cells (items text.toList), cell.length = width
  short : ∀ line ∈ lines text.toList, line.length ≤ 75 ∨ (held line).length = 1

theorem toList_joinPoint {p : Parts} {n : ℕ} (h : p.StandsFor places n) :
    (joinPoint p.whole p.decimals).toList =
      p.whole.toList ++ (if decide (0 < places) then ['.'] else []) ++ p.decimals.toList := by
  have hlength := h.length_decimals
  rw [joinPoint]
  split
  · rename_i hempty
    rw [String.isEmpty_iff.1 hempty] at hlength ⊢
    obtain rfl : 0 = places := hlength
    simp
  · rename_i hempty
    have hplaces : 0 < places := by
      rw [← hlength, Nat.pos_iff_ne_zero]
      exact fun h0 => hempty (String.isEmpty_iff.2 (String.length_eq_zero_iff.1 h0))
    rw [decide_eq_true hplaces, if_pos rfl, String.toList_append, String.toList_append]
    rfl

/-- A number alone is written behind a blank unless it is negative, and has no point without
decimals. -/
theorem toList_fixedText (places : ℕ) (hx : x.Finite) :
    ∃ cs, IsNearest (0 < places) places x cs ∧ (fixedText .blank places x.value).toList =
      List.replicate (if x.negative then 0 else 1) ' ' ++ cs := by
  obtain ⟨m, e, hexact, hamount⟩ := exists_exact hx
  refine ⟨_, isNearest_fixed places hamount, ?_⟩
  rw [fixedText, hexact]
  change (Lead.blank.sign x.negative ++ joinPoint (fixed places _ _).whole _).toList = _
  rw [String.toList_append, toList_joinPoint (fixed_standsFor places _ _)]
  cases x.negative <;> rfl

theorem shows_single (places : ℕ) (hx : x.Finite) :
    Shows places [x] (fixedText .blank places x.value) := by
  obtain ⟨cs, hnearest, htext⟩ := toList_fixedText places hx
  obtain ⟨hword, htrim⟩ := isWord_of_isNearest hnearest (if x.negative then 0 else 1)
  rw [← htext] at hword htrim
  refine ⟨⟨_, hword.not_mem rfl, hword.not_mem rfl, rfl⟩, ?_, ?_, ?_, ?_⟩
  · rw [hword.items_eq]
    refine .cons ?_ .nil
    rw [htrim]
    simpa using hnearest
  · rw [hword.items_eq]
    exact fun item hitem => absurd hitem List.not_mem_nil
  · exact fun h2 => absurd h2 (by simp)
  · rw [hword.lines_eq]
    intro line hline
    rw [List.mem_singleton.1 hline, hword.held_eq]
    exact .inr rfl

/-- The text of a vector whose words are those of some doubles in aligned columns. -/
theorem shows_columns {g : Grid String} (hshape : g.shape = [xs.length])
    (hentries : g.entries.map String.toList = alignedWords places xs) (h2 : 2 ≤ xs.length)
    (hsize : xs.length ≤ threshold) (h : ∀ x ∈ xs, Moderate x) (hroom : HasRoom places xs) :
    Shows places xs (columns g) := by
  have hlength : g.size = xs.length := by
    rw [Grid.size, ← List.length_map, hentries, alignedWords, List.length_map]
  have hne : g.entries ≠ [] := List.ne_nil_of_length_pos (by change 0 < g.size; omega)
  have hwords : ∀ w ∈ g.entries, IsWord w.toList := by
    rw [← List.forall_mem_map, hentries]
    exact isWord_of_mem_alignedWords h
  rw [← hlength] at hshape
  have hg : g.size ≤ threshold := hlength.trans_le hsize
  have hitems := items_text hshape hne hg hwords
  rw [hentries] at hitems
  change Shows places xs (text { separator := ", " } g)
  refine ⟨?_, ?_, ?_, fun _ => ?_, fun line => length_of_mem_lines_text hshape hne hg hwords⟩
  · simp only [if_neg (show xs.length ≠ 1 by omega)]
    exact exists_inner_text hshape hne hg hwords
  · have hpointed : (decide (0 < places) || decide (2 ≤ xs.length)) = true := by simp [h2]
    rw [hitems, hpointed, ← List.forall₂_map_right_iff, map_trimBlanks_spaced,
      List.forall₂_map_right_iff]
    exact forall₂_alignedWords h hroom
  · rw [hitems]
    exact head?_of_mem_tail_spaced _
  · rw [hitems, cells_spaced]
    exact ⟨_, length_of_mem_alignedWords h⟩

theorem shows_several (h2 : 2 ≤ xs.length) (hsize : xs.length ≤ threshold)
    (h : ∀ x ∈ xs, Moderate x) (hroom : HasRoom places xs) :
    Shows places xs (columns (floatWords (.aligned places) (vector xs))) := by
  refine shows_columns rfl ?_ h2 hsize h hroom
  rw [floatWords, shown_vector hsize, alignedWords]
  exact (List.map_map ..).trans (List.map_map ..)

/-- Whether there is room for some doubles: alone, one may have so many decimals; of several, none
may be too long. -/
def Room (places : ℕ) (xs : List Double) : Prop :=
  if xs.length = 1 then places ≤ maximalPlaces else HasRoom places xs

/-- How doubles without room are refused. -/
def refusal (places : ℕ) (xs : List Double) : Failure :=
  if xs.length = 1 then .badPrecision else if maximalPlaces < places then .tooLarge else .tooWide

def halves : List Double := [.ofFloat 0.5, .ofFloat 1.5, .ofFloat (-2.5)]

theorem moderate_halves : ∀ x ∈ halves, Moderate x := by
  have hparts : halves.map (fun x => parts x.value) =
      [.finite .positive (2 ^ 52) (-53) (by decide),
        .finite .positive (3 * 2 ^ 51) (-52) (by decide),
        .finite .negative (5 * 2 ^ 50) (-51) (by decide)] := rfl
  intro x hx
  have hmem : parts x.value ∈ halves.map (fun x => parts x.value) := List.mem_map_of_mem hx
  rw [hparts] at hmem
  simp only [List.mem_cons, List.not_mem_nil, or_false] at hmem
  change (parts x.value).isFinite = true ∧ |Number.amount (parts x.value)| < 10 ^ 8
  rcases hmem with hmem | hmem | hmem
  all_goals
    rw [hmem]
    refine ⟨rfl, ?_⟩
    norm_num [Number.amount, factor]

example : value (.list (halves.map .real)) { places := .int 0 } = .ok "[ 0.,  2., -2.]" := by
  rfl

end RootFinding.Aligned
