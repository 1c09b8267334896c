import Mathlib.Data.List.DropRight
import Mathlib.Data.List.TakeWhile
import RootFinding.Decimal.Numeral
import RootFinding.Grid.Layout

/-!
# Rows of words

The words of an axis fill rows from left to right. A row ends where the next word would pass the
width, so that it is no wider unless it holds a single word, and no word is lost or moved. A wrapped
line consists of the rows, with the blank behind the comma at the end of each of them left out.
-/
namespace RootFinding.Layout

variable {indent width : ℕ} {row words line : List String}

theorem rdropWhile_append_of_forall {p : Char → Bool} {l t : List Char} (h : ∀ c ∈ t, p c = true) :
    (l ++ t).rdropWhile p = l.rdropWhile p := by
  rw [List.rdropWhile, List.reverse_append, List.dropWhile_append_of_pos, List.rdropWhile]
  simpa using h

theorem toList_trimAsciiEnd (s : String) :
    s.trimAsciiEnd.toString.toList = s.toList.rdropWhile Char.isWhitespace := by
  have happ : (s.toSlice.dropEndWhile Char.isWhitespace).copy ++
      (s.toSlice.takeEndWhile Char.isWhitespace).copy = s.toSlice.copy :=
    String.Slice.dropEndWhile_append_takeEndWhile
  have hend : (s.toSlice.dropEndWhile Char.isWhitespace).endsWith Char.isWhitespace = false :=
    String.Slice.endsWith_dropEndWhile
  have hall : (s.toSlice.takeEndWhile Char.isWhitespace).revAll Char.isWhitespace = true :=
    String.Slice.revAll_takeEndWhile
  rw [String.Slice.endsWith_bool_eq_getLast?] at hend
  rw [String.Slice.revAll_bool_eq, List.all_eq_true] at hall
  rw [String.copy_toSlice, ← String.toList_inj, String.toList_append] at happ
  change (s.toSlice.dropEndWhile Char.isWhitespace).copy.toList = _
  rw [← happ, rdropWhile_append_of_forall hall, eq_comm, List.rdropWhile_eq_self_iff]
  intro hne hlast
  rw [List.getLast?_eq_some_getLast hne, Option.any_some, hlast] at hend
  cases hend

theorem trimAsciiEnd_comma (s : String) : (s ++ ", ").trimAsciiEnd.toString = s ++ "," := by
  rw [← String.toList_inj, toList_trimAsciiEnd, String.toList_append, String.toList_append]
  change (s.toList ++ [',', ' ']).rdropWhile Char.isWhitespace = s.toList ++ [',']
  rw [← List.singleton_append (x := ','), ← List.append_assoc, List.rdropWhile_concat,
    if_pos (by decide), List.rdropWhile_concat, if_neg (by decide)]

def lead (indent : ℕ) (row : List String) : String :=
  blanks indent ++ String.join (row.map (· ++ ", "))

def fill (indent width : ℕ) (row : List String) : List String → List (List String)
  | [] => [row]
  | word :: rest =>
    if width < (lead indent row).length + word.length && indent < (lead indent row).length then
      row :: fill indent width [word] rest
    else fill indent width (row ++ [word]) rest

@[simp] theorem length_blanks (n : ℕ) : (blanks n).length = n := by
  simp [blanks]

theorem fill_ne_nil (indent width : ℕ) (row words : List String) :
    fill indent width row words ≠ [] := by
  induction words generalizing row with
  | nil => exact List.cons_ne_nil _ _
  | cons word rest ih =>
    rw [fill]
    split
    · exact List.cons_ne_nil _ _
    · exact ih _

theorem flatten_fill (indent width : ℕ) (row words : List String) :
    (fill indent width row words).flatten = row ++ words := by
  induction words generalizing row with
  | nil => simp [fill]
  | cons word rest ih =>
    rw [fill]
    split
    · rw [List.flatten_cons, ih, List.singleton_append]
    · rw [ih, List.append_assoc, List.singleton_append]

theorem row_ne_nil_of_indent_lt (h : indent < (lead indent row).length) : row ≠ [] := by
  rintro rfl
  simp [lead] at h

theorem lead_concat (indent : ℕ) (row : List String) (word : String) :
    lead indent row ++ word = blanks indent ++ ", ".intercalate (row ++ [word]) := by
  rw [lead, String.append_assoc]
  congr 1
  induction row with
  | nil => simp
  | cons first row ih =>
    rw [List.cons_append, String.intercalate_cons_of_ne_nil (by simp), ← ih]
    simp [String.append_assoc]

theorem lead_snoc (indent : ℕ) (row : List String) (word : String) :
    lead indent (row ++ [word]) = lead indent row ++ word ++ ", " := by
  simp [lead, String.append_assoc]

theorem lead_of_ne_nil (indent : ℕ) (h : row ≠ []) :
    lead indent row = blanks indent ++ ", ".intercalate row ++ ", " := by
  rw [← List.dropLast_append_getLast h, lead_snoc, lead_concat]

/-- A row that is no wider than a width, unless it holds a single word. -/
def Fits (indent width : ℕ) (row : List String) : Prop :=
  row.length ≤ 1 ∨ indent + (", ".intercalate row).length ≤ width

theorem fits_of_mem_fill (h : Fits indent width row) (hline : line ∈ fill indent width row words) :
    Fits indent width line := by
  induction words generalizing row with
  | nil => rwa [List.mem_singleton.1 hline]
  | cons word rest ih =>
    rw [fill] at hline
    split at hline
    · rcases List.mem_cons.1 hline with rfl | hline
      · exact h
      · exact ih (.inl le_rfl) hline
    · rename_i hroom
      refine ih ?_ hline
      rw [Bool.and_eq_true, decide_eq_true_iff, decide_eq_true_iff] at hroom
      by_cases hwide : width < (lead indent row).length + word.length
      · left
        have hnil : row = [] := by
          by_contra hne
          have hlength := congrArg String.length (lead_of_ne_nil indent hne)
          simp only [String.length_append, length_blanks] at hlength
          change _ = _ + 2 at hlength
          exact hroom ⟨hwide, by omega⟩
        rw [hnil]
        exact le_rfl
      · right
        have hlength := congrArg String.length (lead_concat indent row word)
        simp only [String.length_append, length_blanks] at hlength
        omega

theorem ne_nil_of_mem_fill (h : row ≠ [] ∨ words ≠ [])
    (hline : line ∈ fill indent width row words) : line ≠ [] := by
  induction words generalizing row with
  | nil =>
    rw [List.mem_singleton.1 hline]
    exact h.resolve_right (not_not_intro rfl)
  | cons word rest ih =>
    rw [fill] at hline
    split at hline
    · rename_i hbreak
      rw [Bool.and_eq_true, decide_eq_true_iff, decide_eq_true_iff] at hbreak
      rcases List.mem_cons.1 hline with rfl | hline
      · exact row_ne_nil_of_indent_lt hbreak.2
      · exact ih (.inl (List.cons_ne_nil _ _)) hline
    · exact ih (.inl (by simp)) hline

theorem wrap_eq (indent width : ℕ) (row : List String) (hw : words ≠ []) :
    wrap ", " indent width (lead indent row) words =
      blanks indent ++ (",\n" ++ blanks indent).intercalate
        ((fill indent width row words).map ", ".intercalate) := by
  induction words generalizing row with
  | nil => exact absurd rfl hw
  | cons word rest ih =>
    have hbreak (h : indent < (lead indent row).length) (rest : List String) :
        (lead indent row).trimAsciiEnd.toString ++ "\n" ++ (blanks indent ++
            (",\n" ++ blanks indent).intercalate
              ((fill indent width [word] rest).map ", ".intercalate)) =
          blanks indent ++ (",\n" ++ blanks indent).intercalate
            ((row :: fill indent width [word] rest).map ", ".intercalate) := by
      rw [lead_of_ne_nil indent (row_ne_nil_of_indent_lt h), trimAsciiEnd_comma, List.map_cons,
        String.intercalate_cons_of_ne_nil (by simp [fill_ne_nil])]
      simp only [String.append_assoc]
      rfl
    rw [fill]
    cases rest with
    | nil =>
      rw [wrap]
      split
      · rename_i h
        rw [Bool.and_eq_true, decide_eq_true_iff, decide_eq_true_iff] at h
        rw [← hbreak h.2]
        simp [fill, String.append_assoc]
      · rw [lead_concat]
        simp [fill]
    | cons next rest =>
      rw [wrap]
      split
      · rename_i h
        rw [Bool.and_eq_true, decide_eq_true_iff, decide_eq_true_iff] at h
        rw [← hbreak h.2, ← ih [word] (List.cons_ne_nil _ _)]
        simp [lead, String.append_assoc]
      · rw [← ih (row ++ [word]) (List.cons_ne_nil _ _), lead_snoc]
      · simp

end RootFinding.Layout
