import RootFinding.Proofs.Style.Grounded

/-!
# Failing operations on styles

An operation that fails leaves every collection and every style as it was and warns of nothing. So
those that fail can be left out of a history: the others reply as before and end in the same
registry. Only a print may have written something when it fails, because values are written one by
one: it breaks off at the first one that cannot be written, and one under an unknown name fails
behind its line if that name cannot be written into a warning.
-/
namespace RootFinding.Style

def Reply.succeeds (reply : Reply) : Bool :=
  match reply.result with
  | .ok _ => true
  | .error _ => false

theorem Reply.exists_of_not_succeeds {reply : Reply} (h : reply.succeeds = false) :
    ∃ cause, reply.result = .error cause := by
  unfold succeeds at h
  split at h
  · cases h
  · exact ⟨_, ‹_›⟩

section Lines
variable {separator lineEnd : String} {values : List Value} {cause : Failure}

theorem written_of_isWritable {v : Value} (h : v.isWritable = true) : v.written = .ok v.shown :=
  if_pos h

theorem isWritable_of_written {v : Value} {s : String} (h : v.written = .ok s) :
    v.isWritable = true ∧ s = v.shown := by
  unfold Value.written at h
  split at h
  · cases h
    exact ⟨‹_›, rfl⟩
  · cases h

/-- A line that breaks off at the first value that cannot be written. The values in front of it are
written, each with the separator behind it. -/
def BreaksOff (separator : String) (values : List Value) (cause : Failure) (line : String) : Prop :=
  ∃ before v after, values = before ++ v :: after ∧ (∀ w ∈ before, w.isWritable = true) ∧
    v.written = .error cause ∧ line = String.join (before.map fun w => w.shown ++ separator)

theorem writeValues_of_isWritable (separator : String) (h : ∀ v ∈ values, v.isWritable = true) :
    writeValues separator values = (separator.intercalate (values.map Value.shown), .ok ()) := by
  induction values with
  | nil => rfl
  | cons v rest ih =>
    obtain ⟨hv, hrest⟩ := List.forall_mem_cons.1 h
    rw [writeValues, written_of_isWritable hv]
    cases rest with
    | nil => simp
    | cons w rest => simp [ih hrest]

theorem writeValues_append {before : List Value} (h : ∀ w ∈ before, w.isWritable = true)
    (v : Value) (after : List Value) :
    writeValues separator (before ++ v :: after) =
      (String.join (before.map fun w => w.shown ++ separator) ++
        (writeValues separator (v :: after)).1, (writeValues separator (v :: after)).2) := by
  induction before with
  | nil => simp
  | cons w before ih =>
    obtain ⟨hw, hbefore⟩ := List.forall_mem_cons.1 h
    rw [List.cons_append, writeValues, written_of_isWritable hw, ih hbefore]
    simp [String.append_assoc]

theorem BreaksOff.writeValues_eq {line : String} (h : BreaksOff separator values cause line) :
    writeValues separator values = (line, .error cause) := by
  obtain ⟨before, v, after, rfl, hbefore, hv, rfl⟩ := h
  rw [writeValues_append hbefore, writeValues, hv]
  simp

theorem writable_or_breaksOff (separator : String) (values : List Value) :
    (∀ v ∈ values, v.isWritable = true) ∨ ∃ cause line, BreaksOff separator values cause line := by
  induction values with
  | nil => exact .inl (by simp)
  | cons v rest ih =>
    cases hv : v.written with
    | error cause => exact .inr ⟨cause, "", [], v, rest, rfl, by simp, hv, rfl⟩
    | ok s =>
      have hwritable := (isWritable_of_written hv).1
      rcases ih with hrest | ⟨cause, line, before, w, after, rfl, hbefore, hw, rfl⟩
      · exact .inl (List.forall_mem_cons.2 ⟨hwritable, hrest⟩)
      · exact .inr ⟨cause, _, v :: before, w, after, rfl,
          List.forall_mem_cons.2 ⟨hwritable, hbefore⟩, hw, rfl⟩

end Lines

namespace Registry
variable {r : Registry}

/-- Operations that fail when something is printed already: prints whose line breaks off, and prints
under an unknown name that cannot be written. -/
inductive Tears (r : Registry) : Operation → Failure → String → Prop
  | value {place : Nat} {name : Value} {arguments : List Value} {options : PrintOptions}
      {values : List Value} {known : Bool} {separator lineEnd line : String} {cause : Failure}
      (hline : r.line? place name arguments options = .ok (some (values, known)))
      (hmarks : options.marks = .ok (separator, lineEnd))
      (h : BreaksOff separator values cause line) :
      Tears r (.print place name arguments options) cause line
  | name {place : Nat} {name : Value} {arguments : List Value} {options : PrintOptions}
      {values : List Value} {separator lineEnd : String} {cause : Failure}
      (hline : r.line? place name arguments options = .ok (some (values, false)))
      (hmarks : options.marks = .ok (separator, lineEnd))
      (hvalues : ∀ v ∈ values, v.isWritable = true) (hname : name.written = .error cause) :
      Tears r (.print place name arguments options) cause
        (separator.intercalate (values.map Value.shown) ++ lineEnd)

theorem Tears.perform_eq {operation : Operation} {cause : Failure} {line : String}
    (h : r.Tears operation cause line) :
    r.perform operation = (r, { result := .error cause, printed := line }) := by
  cases h with
  | @value place name arguments options values known _ _ _ _ hline hmarks h =>
    have hprint : printValues options values = { result := .error cause, printed := line } := by
      rw [printValues, hmarks]
      dsimp only
      rw [h.writeValues_eq]
    rw [perform, print, hline]
    cases known <;> simp [hprint, Reply.warnOf]
  | @name place name arguments options values _ _ _ hline hmarks hvalues hname =>
    rw [perform, print, hline]
    simp [printValues, hmarks, writeValues_of_isWritable _ hvalues, Reply.warnOf, hname]

/-- A print that fails has printed nothing, unless it tears. -/
theorem print_of_failed {place : Nat} {name : Value} {arguments : List Value}
    {options : PrintOptions} {cause : Failure}
    (h : (r.print place name arguments options).result = .error cause) :
    r.print place name arguments options = { result := .error cause } ∨
      ∃ line, r.Tears (.print place name arguments options) cause line := by
  cases hline : r.line? place name arguments options with
  | error other =>
    rw [print, hline] at h ⊢
    cases h
    exact .inl rfl
  | ok found =>
    rcases found with - | ⟨values, known⟩
    · rw [print, hline] at h
      cases h
    cases hmarks : options.marks with
    | error other =>
      have hprint : printValues options values = { result := .error other } := by
        rw [printValues, hmarks]
      cases known <;>
      · rw [print, hline] at h ⊢
        simp only [hprint, Reply.warnOf] at h ⊢
        cases h
        exact .inl rfl
    | ok marks =>
      obtain ⟨separator, lineEnd⟩ := marks
      rcases writable_or_breaksOff separator values with hvalues | ⟨other, line, hbreaks⟩
      · have hprint : printValues options values =
            { printed := separator.intercalate (values.map Value.shown) ++ lineEnd } := by
          rw [printValues, hmarks]
          dsimp only
          rw [writeValues_of_isWritable _ hvalues]
        cases known with
        | true =>
          rw [print, hline] at h
          simp only [hprint] at h
          cases h
        | false =>
          cases hname : name.written with
          | ok shown =>
            rw [print, hline] at h
            simp only [hprint, Reply.warnOf, hname] at h
            cases h
          | error other =>
            have htears : r.Tears (.print place name arguments options) other _ :=
              .name hline hmarks hvalues hname
            cases h.symm.trans (congrArg (·.2.result) htears.perform_eq)
            exact .inr ⟨_, htears⟩
      · have htears : r.Tears (.print place name arguments options) other line :=
          .value hline hmarks hbreaks
        cases h.symm.trans (congrArg (·.2.result) htears.perform_eq)
        exact .inr ⟨_, htears⟩

/-- The styles and names that adding needs are looked up before anything is hung or entered. -/
theorem add_of_failed {place style : Nat} {name : Value} {options : AddOptions} {cause : Failure}
    (h : (r.add place name style options).2.result = .error cause) :
    r.add place name style options = (r, { result := .error cause }) := by
  cases hprepare : r.prepareAdd place name style options with
  | error other =>
    rw [add, hprepare] at h ⊢
    cases h
    rfl
  | ok found =>
    rw [add_of_prepareAdd hprepare] at h
    cases h

theorem newCollection_of_failed {arguments : List Value} {cause : Failure}
    (h : (r.newCollection arguments).2.result = .error cause) :
    r.newCollection arguments = (r, { result := .error cause }) := by
  unfold newCollection at h ⊢
  split at h
  · cases h
  · cases h
  · cases h
    rfl

theorem newStyle_of_failed {decoration : Decoration} {parent : Option Nat} {cause : Failure}
    (h : (r.newStyle decoration parent).2.result = .error cause) :
    r.newStyle decoration parent = (r, { result := .error cause }) := by
  unfold newStyle at h ⊢
  split at h
  · cases h
  · cases h
    rfl

theorem setDisplay_of_failed {place : Nat} {level : Value} {cause : Failure}
    (h : (r.setDisplay place level).2.result = .error cause) :
    r.setDisplay place level = (r, { result := .error cause }) := by
  unfold setDisplay at h ⊢
  split at h
  · cases h
  · cases h
    rfl

/-- An operation that fails changes nothing, and replies with its failure alone unless it tears. -/
theorem perform_of_failed {operation : Operation} {cause : Failure}
    (h : (r.perform operation).2.result = .error cause) :
    r.perform operation = (r, { result := .error cause }) ∨
      ∃ line, r.Tears operation cause line := by
  cases operation with
  | newCollection arguments => exact .inl (newCollection_of_failed h)
  | newStyle decoration parent => exact .inl (newStyle_of_failed h)
  | add place name style options => exact .inl (add_of_failed h)
  | setDisplay place level => exact .inl (setDisplay_of_failed h)
  | print place name arguments options =>
    exact (print_of_failed h).imp (congrArg (r, ·)) id
  | applyStyle style text | styleLevel style | apply place name text | getDisplay place =>
    left
    rw [perform] at h ⊢
    exact congrArg (fun result => (r, ({ result } : Reply))) h

theorem fst_perform_of_failed {operation : Operation} {cause : Failure}
    (h : (r.perform operation).2.result = .error cause) : (r.perform operation).1 = r := by
  rcases perform_of_failed h with heq | ⟨line, htears⟩
  · rw [heq]
  · rw [htears.perform_eq]

def replies (r : Registry) : List Operation → List Reply
  | [] => []
  | operation :: rest => (r.perform operation).2 :: (r.perform operation).1.replies rest

def succeeding (r : Registry) : List Operation → List Operation
  | [] => []
  | operation :: rest =>
    if (r.perform operation).2.succeeds then
      operation :: (r.perform operation).1.succeeding rest
    else (r.perform operation).1.succeeding rest

/-- Without the operations that fail, a history ends in the same registry and has the replies that
tell of a success. -/
theorem run_succeeding (r : Registry) (operations : List Operation) :
    r.run (r.succeeding operations) = r.run operations ∧
      r.replies (r.succeeding operations) = (r.replies operations).filter Reply.succeeds := by
  induction operations generalizing r with
  | nil => exact ⟨rfl, rfl⟩
  | cons operation rest ih =>
    obtain ⟨hrun, hreplies⟩ := ih (r.perform operation).1
    rw [succeeding, replies]
    cases hs : (r.perform operation).2.succeeds with
    | true =>
      rw [if_pos rfl, List.filter_cons_of_pos hs, replies, hreplies]
      exact ⟨hrun, rfl⟩
    | false =>
      obtain ⟨cause, hcause⟩ := Reply.exists_of_not_succeeds hs
      have hsame : (r.perform operation).1 = r := fst_perform_of_failed hcause
      have hstep : r.run (operation :: rest) = r.run rest := congrArg (run · rest) hsame
      rw [if_neg Bool.false_ne_true, List.filter_cons_of_neg (by simp [hs]), hstep]
      rw [hsame] at hrun hreplies ⊢
      exact ⟨hrun, hreplies⟩

/-- A style that hangs below itself, and operations that fail over it, over a known name, over a
missing parent and over a missing style. -/
def troubled : List Operation := looped ++ [.styleLevel 0, .add 0 (.text "a") 0 {},
  .add 0 (.text "c") 0 { parent := .text "z" }, .print 0 (.text "b") [.text "x"] {},
  .print 0 (.text "z") [.text "x"] { separator := .int 1 }]

def overlong : Operation := .print 0 .nothing [.text "abc", .int (Nat.pow 10 5000)] {}

end Registry
end RootFinding.Style
