import RootFinding.Proofs.Grid.Rows

/-!
# Texts read back

A vector of words between brackets is read back. Its lines are the rows that the words fill, and its
items, cut at the commas, are the words in order: the first word, and the others behind the blank of
their separator or of their line.
-/
namespace RootFinding.Layout

def lines (cs : List Char) : List (List Char) := cs.splitOn '\n'

def isInside (c : Char) : Bool := c != '[' && c != ']' && c != '\n'

/-- What stands between the commas of a text, its brackets and line breaks left out. -/
def items (cs : List Char) : List (List Char) := (cs.filter isInside).splitOn ','

/-- The items that a line holds: behind its last comma there is none. -/
def held (line : List Char) : List (List Char) :=
  (items line).filter fun item => !(Decimal.trimBlanks item).isEmpty

/-- Items with their padding: without the blank that sets each but the first apart. -/
def cells : List (List Char) → List (List Char)
  | [] => []
  | first :: rest => first :: rest.map fun item => item.drop 1

/-- A word that can be told from what sets words apart. -/
structure IsWord (word : List Char) : Prop where
  not_comma : ',' ∉ word
  inside : ∀ c ∈ word, isInside c = true
  not_blank : Decimal.trimBlanks word ≠ []

variable {word line sep : List Char} {row words : List (List Char)}
  {rows : List (List (List Char))} {a c : Char}

theorem trimBlanks_cons_blank (word : List Char) :
    Decimal.trimBlanks (' ' :: word) = Decimal.trimBlanks word := rfl

/-- Characters that are not blank are left alone behind any number of blanks. -/
theorem trimBlanks_replicate_append (k : ℕ) (h : ∀ c ∈ word, Text.isAsciiBlank c = false) :
    Decimal.trimBlanks (List.replicate k ' ' ++ word) = word := by
  have hdrop (cs : List Char) (hcs : ∀ c ∈ cs, Text.isAsciiBlank c = false) :
      cs.dropWhile Text.isAsciiBlank = cs :=
    List.dropWhile_eq_self_iff.2 fun hl => Bool.eq_false_iff.1 (hcs _ (List.getElem_mem hl))
  have hfront : (List.replicate k ' ' ++ word).dropWhile Text.isAsciiBlank = word := by
    rw [List.dropWhile_append_of_pos fun c hc => by rw [List.eq_of_mem_replicate hc]; rfl,
      hdrop word h]
  rw [Decimal.trimBlanks, hfront, hdrop word.reverse fun c hc => h c (List.mem_reverse.1 hc),
    List.reverse_reverse]

theorem IsWord.not_mem (h : IsWord word) (hc : isInside c = false) : c ∉ word := fun hmem => by
  rw [h.inside c hmem] at hc
  cases hc

theorem IsWord.items_eq (h : IsWord word) : items word = [word] := by
  rw [items, List.filter_eq_self.2 h.inside, List.splitOn_eq_singleton h.not_comma]

theorem IsWord.lines_eq (h : IsWord word) : lines word = [word] :=
  List.splitOn_eq_singleton (h.not_mem rfl)

theorem IsWord.held_eq (h : IsWord word) : held word = [word] := by
  rw [held, h.items_eq, List.filter_singleton, List.isEmpty_eq_false_iff.2 h.not_blank]
  rfl

theorem IsWord.cons_blank (h : IsWord word) : IsWord (' ' :: word) where
  not_comma hmem := h.not_comma ((List.mem_cons.1 hmem).resolve_left (by decide))
  inside := List.forall_mem_cons.2 ⟨rfl, h.inside⟩
  not_blank := h.not_blank

def spaced : List (List Char) → List (List Char)
  | [] => []
  | word :: words => word :: words.map (' ' :: ·)

theorem cells_spaced (words : List (List Char)) : cells (spaced words) = words := by
  cases words with
  | nil => rfl
  | cons word words =>
    rw [spaced, cells, List.map_map]
    exact congrArg (word :: ·) (List.map_id words)

theorem head?_of_mem_tail_spaced (words : List (List Char)) :
    ∀ item ∈ (spaced words).tail, item.head? = some ' ' := by
  cases words with
  | nil => exact fun item hitem => absurd hitem List.not_mem_nil
  | cons word words => exact List.forall_mem_map.2 fun w _ => rfl

theorem map_trimBlanks_spaced (words : List (List Char)) :
    (spaced words).map Decimal.trimBlanks = words.map Decimal.trimBlanks := by
  cases words with
  | nil => rfl
  | cons word words =>
    rw [spaced, List.map_cons, List.map_map, List.map_cons]
    exact congrArg _ (List.map_congr_left fun w _ => trimBlanks_cons_blank w)

theorem length_spaced (words : List (List Char)) : (spaced words).length = words.length := by
  cases words <;> simp [spaced]

theorem isWord_of_mem_spaced (h : ∀ w ∈ words, IsWord w) : ∀ item ∈ spaced words, IsWord item := by
  cases words with
  | nil => exact fun item hitem => absurd hitem List.not_mem_nil
  | cons word words =>
    obtain ⟨hword, hwords⟩ := List.forall_mem_cons.1 h
    exact List.forall_mem_cons.2
      ⟨hword, List.forall_mem_map.2 fun w hw => (hwords w hw).cons_blank⟩

theorem intercalate_cons (sep word : List Char) (words : List (List Char)) :
    sep.intercalate (word :: words) = word ++ words.flatMap (sep ++ ·) := by
  induction words generalizing word with
  | nil => simp
  | cons next words ih =>
    rw [List.intercalate_cons_cons, ih, List.flatMap_cons, List.append_assoc, List.append_assoc]

theorem filter_intercalate (p : Char → Bool) (sep : List Char) (words : List (List Char)) :
    (sep.intercalate words).filter p =
      (sep.filter p).intercalate (words.map (List.filter p)) := by
  cases words with
  | nil => rfl
  | cons word words =>
    rw [List.map_cons, intercalate_cons, intercalate_cons, List.filter_append, List.filter_flatMap,
      List.flatMap_map]
    simp only [List.filter_append]

theorem intercalate_append (hrow : row ≠ []) (hwords : words ≠ []) :
    sep.intercalate (row ++ words) = sep.intercalate row ++ sep ++ sep.intercalate words := by
  obtain ⟨word, row, rfl⟩ := List.exists_cons_of_ne_nil hrow
  obtain ⟨next, words, rfl⟩ := List.exists_cons_of_ne_nil hwords
  simp only [List.cons_append, intercalate_cons, List.flatMap_append, List.flatMap_cons,
    List.append_assoc]

theorem intercalate_flatten (h : ∀ row ∈ rows, row ≠ []) :
    sep.intercalate (rows.map sep.intercalate) = sep.intercalate rows.flatten := by
  induction rows with
  | nil => rfl
  | cons row rows ih =>
    obtain ⟨hrow, hrows⟩ := List.forall_mem_cons.1 h
    cases rows with
    | nil => simp
    | cons next rows =>
      have hflat : (next :: rows).flatten ≠ [] := by
        simp [(List.forall_mem_cons.1 hrows).1]
      rw [List.flatten_cons, intercalate_append hrow hflat, ← ih hrows, List.map_cons,
        List.intercalate_cons_of_ne_nil (by simp)]

theorem not_mem_intercalate (hsep : c ∉ sep) (h : ∀ w ∈ words, c ∉ w) :
    c ∉ sep.intercalate words := by
  cases words with
  | nil => exact List.not_mem_nil
  | cons word words =>
    rw [intercalate_cons, List.mem_append, List.mem_flatMap, not_or]
    refine ⟨h word List.mem_cons_self, ?_⟩
    rintro ⟨w, hw, hc⟩
    exact (List.mem_append.1 hc).elim hsep (h w (List.mem_cons_of_mem _ hw))

abbrev joined (row : List (List Char)) : List Char := [',', ' '].intercalate row

theorem filter_joined (h : ∀ w ∈ row, IsWord w) : (joined row).filter isInside = joined row := by
  rw [filter_intercalate, List.map_congr_left fun w hw => List.filter_eq_self.2 (h w hw).inside,
    List.map_id']
  rfl

/-- A comma with a blank behind it is a comma, and a blank in front of the next word. -/
theorem splitOn_joined (h : ∀ w ∈ row, IsWord w) (hne : row ≠ []) :
    (joined row).splitOn ',' = spaced row := by
  obtain ⟨word, words, rfl⟩ := List.exists_cons_of_ne_nil hne
  have hcomma : joined (word :: words) = [','].intercalate (spaced (word :: words)) := by
    rw [joined, intercalate_cons, spaced, intercalate_cons, List.flatMap_map]
    rfl
  have hwords := isWord_of_mem_spaced h
  rw [hcomma]
  exact List.splitOn_intercalate ',' (fun item hitem => (hwords item hitem).not_comma)
    (List.cons_ne_nil _ _)

theorem not_mem_joined (h : ∀ w ∈ row, IsWord w) (hsep : c ∉ [',', ' ']) (hc : isInside c = false) :
    c ∉ joined row :=
  not_mem_intercalate hsep fun w hw => (h w hw).not_mem hc

/-- A line of a text: a bracket or a blank, a row, and a bracket or a comma. -/
def IsLine (row : List (List Char)) (line : List Char) : Prop :=
  ∃ a b, (a = '[' ∨ a = ' ') ∧ (b = ']' ∨ b = ',') ∧ line = a :: (joined row ++ [b])

theorem exists_row_of_mem_lines (h : ∀ row ∈ rows, ∀ w ∈ row, IsWord w) (hne : rows ≠ [])
    (ha : a = '[' ∨ a = ' ')
    (hline : line ∈ lines (a :: ([',', '\n', ' '].intercalate (rows.map joined) ++ [']']))) :
    ∃ row ∈ rows, IsLine row line := by
  have hbreak : '\n' ≠ a := by
    rcases ha with rfl | rfl <;> decide
  induction rows generalizing a with
  | nil => exact absurd rfl hne
  | cons row rows ih =>
    obtain ⟨hrow, hrows⟩ := List.forall_mem_cons.1 h
    have hrow := not_mem_joined hrow (by decide) (rfl : isInside '\n' = false)
    cases rows with
    | nil =>
      rw [List.map_singleton, List.intercalate_singleton, lines,
        List.splitOn_eq_singleton (by simp [hbreak, hrow]), List.mem_singleton] at hline
      exact ⟨row, List.mem_cons_self, a, ']', ha, .inl rfl, hline⟩
    | cons next rows =>
      have hcut : a :: ([',', '\n', ' '].intercalate ((row :: next :: rows).map joined) ++ [']']) =
          (a :: (joined row ++ [','])) ++ '\n' ::
            (' ' :: ([',', '\n', ' '].intercalate ((next :: rows).map joined) ++ [']'])) := by
        rw [List.map_cons, List.intercalate_cons_of_ne_nil (by simp)]
        simp only [List.append_assoc, List.cons_append, List.nil_append]
      rw [hcut, lines, List.splitOn_append_cons_self_of_not_mem (by simp [hbreak, hrow]),
        List.mem_cons] at hline
      rcases hline with rfl | hline
      · exact ⟨row, List.mem_cons_self, a, ',', ha, .inr rfl, rfl⟩
      · obtain ⟨found, hmem, hfound⟩ := ih hrows (List.cons_ne_nil _ _) (.inr rfl) hline (by decide)
        exact ⟨found, List.mem_cons_of_mem _ hmem, hfound⟩

theorem IsLine.length_eq (h : IsLine row line) : line.length = (joined row).length + 2 := by
  obtain ⟨a, b, -, -, rfl⟩ := h
  simp

theorem IsLine.length_held (hline : IsLine row line) (h : ∀ w ∈ row, IsWord w) (hne : row ≠ []) :
    (held line).length = row.length := by
  obtain ⟨a, b, ha, hb, rfl⟩ := hline
  obtain ⟨row', h', hlength, hfront⟩ : ∃ row', (∀ w ∈ row', IsWord w) ∧
      row'.length = row.length ∧ [a].filter isInside ++ joined row = joined row' := by
    rcases ha with rfl | rfl
    · exact ⟨row, h, rfl, rfl⟩
    · obtain ⟨word, words, rfl⟩ := List.exists_cons_of_ne_nil hne
      obtain ⟨hword, hwords⟩ := List.forall_mem_cons.1 h
      refine ⟨(' ' :: word) :: words, List.forall_mem_cons.2 ⟨hword.cons_blank, hwords⟩, rfl, ?_⟩
      rw [joined, joined, intercalate_cons, intercalate_cons]
      rfl
  have hne' : row' ≠ [] := by
    rintro rfl
    exact hne (List.length_eq_zero_iff.1 hlength.symm)
  have hkept : (spaced row').filter (fun item => !(Decimal.trimBlanks item).isEmpty) =
      spaced row' := by
    refine List.filter_eq_self.2 fun item hitem => ?_
    rw [List.isEmpty_eq_false_iff.2 (isWord_of_mem_spaced h' item hitem).not_blank]
    rfl
  have hfilter : (a :: (joined row ++ [b])).filter isInside =
      joined row' ++ [b].filter isInside := by
    rw [← List.singleton_append, List.filter_append, List.filter_append, filter_joined h,
      ← List.append_assoc, hfront]
  rw [held, items, hfilter]
  rcases hb with rfl | rfl
  · have hend : [']'].filter isInside = [] := rfl
    rw [hend, List.append_nil, splitOn_joined h' hne', hkept, length_spaced, hlength]
  · have hend : [','].filter isInside = [','] := rfl
    rw [hend, List.splitOn_append_cons_self, splitOn_joined h' hne', List.filter_append, hkept,
      List.length_append, length_spaced, hlength]
    rfl

variable {g : Grid String}

def vectorRows (g : Grid String) : List (List (List Char)) :=
  (fill 1 (lineWidth - 1) [] g.entries).map (List.map String.toList)

theorem text_vector (hshape : g.shape = [g.size]) (hne : g.entries ≠ [])
    (hsize : g.size ≤ threshold) :
    (text { separator := ", " } g).toList =
      '[' :: ([',', '\n', ' '].intercalate ((vectorRows g).map joined) ++ [']']) := by
  have hempty : g.size ≠ 0 := mt List.length_eq_zero_iff.1 hne
  have hwrap := wrap_eq 1 (lineWidth - 1) [] hne
  have hlead : lead 1 [] = blanks 1 := rfl
  rw [hlead] at hwrap
  rw [text, if_neg hempty, hshape, render]
  have hshort : shorten (decide (threshold < g.size)) "..." g.entries = g.entries := by
    rw [shorten, decide_eq_false (not_lt.2 hsize)]
    rfl
  have hrows : ((fill 1 (lineWidth - 1) [] g.entries).map ", ".intercalate).map String.toList =
      (vectorRows g).map joined := by
    rw [vectorRows, List.map_map, List.map_map]
    exact List.map_congr_left fun row _ => String.toList_intercalate
  have hdrop (s : String) : ((blanks 1 ++ s).drop 1).toString.toList = s.toList := by
    refine String.toList_copy_drop.trans ?_
    rw [String.toList_append]
    rfl
  have hbreak : (",\n" ++ blanks 1).toList = [',', '\n', ' '] := by
    rw [String.toList_append, blanks, String.toList_ofList]
    rfl
  rw [hshort, hwrap, String.toList_append, String.toList_append, hdrop, String.toList_intercalate,
    hbreak, hrows]
  rfl

theorem flatten_vectorRows (g : Grid String) :
    (vectorRows g).flatten = g.entries.map String.toList := by
  rw [vectorRows, ← List.map_flatten, flatten_fill, List.nil_append]

theorem ne_nil_of_mem_vectorRows (hne : g.entries ≠ []) (h : row ∈ vectorRows g) : row ≠ [] := by
  obtain ⟨line, hline, rfl⟩ := List.mem_map.1 h
  exact mt List.map_eq_nil_iff.1 (ne_nil_of_mem_fill (.inr hne) hline)

theorem length_joined (h : row ∈ vectorRows g) :
    row.length ≤ 1 ∨ (joined row).length + 2 ≤ lineWidth := by
  obtain ⟨line, hline, rfl⟩ := List.mem_map.1 h
  refine (fits_of_mem_fill (.inl (Nat.zero_le _)) hline).imp (fun h1 => ?_) fun hwidth => ?_
  · rwa [List.length_map]
  · rw [← String.length_toList, String.toList_intercalate] at hwidth
    change 1 + (joined _).length ≤ 74 at hwidth
    change _ ≤ 75
    omega

theorem isWord_of_mem_vectorRows (h : ∀ w ∈ g.entries, IsWord w.toList) :
    ∀ row ∈ vectorRows g, ∀ w ∈ row, IsWord w := by
  intro row hrow w hw
  have hmem := List.mem_flatten.2 ⟨row, hrow, hw⟩
  rw [flatten_vectorRows] at hmem
  obtain ⟨entry, hentry, rfl⟩ := List.mem_map.1 hmem
  exact h entry hentry

/-- A vector of words has one pair of brackets, around all of it. -/
theorem exists_inner_text (hshape : g.shape = [g.size]) (hne : g.entries ≠ [])
    (hsize : g.size ≤ threshold) (h : ∀ w ∈ g.entries, IsWord w.toList) :
    ∃ inner, '[' ∉ inner ∧ ']' ∉ inner ∧
      (text { separator := ", " } g).toList = '[' :: (inner ++ [']']) := by
  have hwords := isWord_of_mem_vectorRows h
  refine ⟨_, ?_, ?_, text_vector hshape hne hsize⟩
  · exact not_mem_intercalate (by decide) (List.forall_mem_map.2 fun row hrow =>
      not_mem_joined (hwords row hrow) (by decide) rfl)
  · exact not_mem_intercalate (by decide) (List.forall_mem_map.2 fun row hrow =>
      not_mem_joined (hwords row hrow) (by decide) rfl)

theorem items_text (hshape : g.shape = [g.size]) (hne : g.entries ≠ []) (hsize : g.size ≤ threshold)
    (h : ∀ w ∈ g.entries, IsWord w.toList) :
    items (text { separator := ", " } g).toList = spaced (g.entries.map String.toList) := by
  have hrows : ((vectorRows g).map joined).map (List.filter isInside) =
      (vectorRows g).map joined := by
    rw [List.map_map]
    exact List.map_congr_left fun row hrow => filter_joined (isWord_of_mem_vectorRows h row hrow)
  have hfilter : (text { separator := ", " } g).toList.filter isInside =
      joined (g.entries.map String.toList) := by
    rw [text_vector hshape hne hsize, List.filter_cons_of_neg (by decide), List.filter_append,
      filter_intercalate, hrows, ← flatten_vectorRows, joined,
      ← intercalate_flatten fun row => ne_nil_of_mem_vectorRows hne]
    exact List.append_nil _
  have hwords : ∀ w ∈ g.entries.map String.toList, IsWord w := List.forall_mem_map.2 h
  rw [items, hfilter, splitOn_joined hwords (mt List.map_eq_nil_iff.1 hne)]

/-- No line of a vector of words is longer than a line may be, unless it holds a single word. -/
theorem length_of_mem_lines_text (hshape : g.shape = [g.size]) (hne : g.entries ≠ [])
    (hsize : g.size ≤ threshold) (h : ∀ w ∈ g.entries, IsWord w.toList)
    (hline : line ∈ lines (text { separator := ", " } g).toList) :
    line.length ≤ lineWidth ∨ (held line).length = 1 := by
  have hwords := isWord_of_mem_vectorRows h
  have hrows : vectorRows g ≠ [] := mt List.map_eq_nil_iff.1 (fill_ne_nil _ _ _ _)
  rw [text_vector hshape hne hsize] at hline
  obtain ⟨row, hrow, hrowLine⟩ := exists_row_of_mem_lines hwords hrows (.inl rfl) hline
  have hne := ne_nil_of_mem_vectorRows hne hrow
  rcases length_joined hrow with h1 | hwidth
  · right
    rw [hrowLine.length_held (hwords row hrow) hne]
    exact le_antisymm h1 (List.length_pos_of_ne_nil hne)
  · left
    rwa [hrowLine.length_eq]

end RootFinding.Layout
