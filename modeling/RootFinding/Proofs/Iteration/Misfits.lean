import RootFinding.Proofs.Grid.Stretching
import RootFinding.Proofs.Iteration.Questions

/-!
# Slopes that do not fit

A slope of another dimension than the points either fails the search at once or is taken all the
same: by Newton's method where it is a single entry that divides, along the flow where it is a lone
diagonal that stretches. Nothing else is taken, and while no correction has widened the points
everything is asked at points of the shape of the start.
-/
namespace RootFinding

namespace Search
variable {Point Reading Site Slope Detail Answer : Type}

/-- A search that asks something or ends with an answer next, but for its notes. -/
inductive Proceeds : Search Point Reading Site Slope Detail Answer → Prop
  | evaluate {x next} : Proceeds (.evaluate x next)
  | slope {x next} : Proceeds (.slope x next)
  | report {note next} (h : Proceeds next) : Proceeds (.report note next)
  | done {answer} : Proceeds (.done answer)

/-- How slopes fit the points of a search: where it asks, which slopes do not fit, which of those
are taken at a site all the same, and which make the points wider. -/
structure Fitting (Point Site Slope : Type) where
  points : Point → Prop
  sites : Site → Prop
  misfit : Slope → Prop
  taken : Site → Slope → Prop
  widens : Slope → Prop

/-- A search that fails for the misfits that it does not take, and goes on with the others. -/
inductive Judges (c : Fitting Point Site Slope) :
    Search Point Reading Site Slope Detail Answer → Prop
  | evaluate {x next} (hx : c.points x) (h : ∀ y, Judges c (next y)) :
    Judges c (.evaluate x next)
  | slope {x next} (hx : c.sites x)
    (hrefused : ∀ y, c.misfit y → ¬ c.taken x y → ∃ cause, next y = .fail cause)
    (htaken : ∀ y, c.misfit y → c.taken x y → Proceeds (next y))
    (h : ∀ y, ¬ c.widens y → Judges c (next y)) : Judges c (.slope x next)
  | report {note next} (h : Judges c next) : Judges c (.report note next)
  | fail {cause} : Judges c (.fail cause)
  | done {answer} : Judges c (.done answer)

variable {c : Fitting Point Site Slope} {caller : Caller Point Reading Site Slope Detail}
  {evals : Array Point} {slopes : Array Site} {notes : Array (Note Detail)}
  {search : Search Point Reading Site Slope Detail Answer}
  {before after : List (Question Point Site)} {q : Question Point Site}

variable (evals slopes notes) in
/-- A search that goes on is seen to ask or to end with an answer. -/
theorem Proceeds.asked_or (h : Proceeds search) (hshows : ∀ note, ∃ b, caller.shows note = .ok b) :
    asked caller evals.size slopes.size search ≠ [] ∨
      ∃ answer, (runFrom caller evals slopes notes search).outcome = .ok answer := by
  induction h generalizing notes with
  | evaluate => exact .inl (by rw [asked]; exact List.cons_ne_nil _ _)
  | slope => exact .inl (by rw [asked]; exact List.cons_ne_nil _ _)
  | @report note next _ ih =>
    obtain ⟨shown, hshown⟩ := hshows note
    rw [asked, runFrom, hshown]
    cases shown <;> exact ih _
  | @done answer => exact .inr ⟨answer, rfl⟩

def Narrow (c : Fitting Point Site Slope) (caller : Caller Point Reading Site Slope Detail)
    (places : Nat) (before : List (Question Point Site)) : Prop :=
  ∀ j x y, (before.filterMap Question.slope?)[j]? = some x →
    caller.slope (places + j) x = .ok y → ¬ c.widens y

/-- A search goes on to judge as long as no slope has widened the points. -/
theorem stays_judges :
    Stays (¬ c.widens ·)
      (Judges c : Search Point Reading Site Slope Detail Answer → Prop) where
  evaluate h y := by
    cases h with
    | evaluate _ hnext => exact hnext y
  slope h y hy := by
    cases h with
    | slope _ _ _ hnext => exact hnext y hy
  report h := by
    cases h with
    | report hnext => exact hnext

/-- What a run makes of slopes that do not fit. -/
structure Heeds (c : Fitting Point Site Slope) (caller : Caller Point Reading Site Slope Detail)
    (search : Search Point Reading Site Slope Detail Answer) : Prop where
  /-- While no slope has widened the points, everything is asked where the search may ask. -/
  at_points : ∀ before q after, asked caller 0 0 search = before ++ q :: after →
    Narrow c caller 0 before → q.At c.points c.sites
  /-- A slope that does not fit is the last thing that is asked for and fails the run, unless it is
  taken. -/
  stops_iff : ∀ before x after y, asked caller 0 0 search = before ++ .slope x :: after →
    Narrow c caller 0 before →
    caller.slope (before.filterMap Question.slope?).length x = .ok y → c.misfit y →
    ((after = [] ∧ ∃ cause, (search.run caller).outcome = .error cause) ↔ ¬ c.taken x y)

theorem Judges.heeds (h : Judges c search) (hshows : ∀ note, ∃ b, caller.shows note = .ok b) :
    Heeds c caller search where
  at_points before q after hasked hnarrow := by
    obtain ⟨rest, -, -, -, hrest, hbegins, -⟩ :=
      stays_judges.exists_begins #[] #[] #[] h hasked hnarrow
    cases q with
    | value x =>
      obtain ⟨next, rfl⟩ := hbegins
      cases hrest with
      | evaluate hx => exact hx
    | slope x =>
      obtain ⟨next, rfl⟩ := hbegins
      cases hrest with
      | slope hx => exact hx
  stops_iff before x after y hasked hnarrow hy hmisfit := by
    obtain ⟨rest, evals, slopes, notes, hrest, ⟨next, rfl⟩, hrun, hafter, -, hsize⟩ :=
      stays_judges.exists_begins #[] #[] #[] h hasked hnarrow
    rw [Array.size_empty, Nat.zero_add] at hsize
    rw [← hsize] at hy
    rw [asked, hy, List.cons.injEq] at hafter
    rw [Search.run, hrun, runFrom, hy]
    cases hrest with
    | slope hx hrefused htaken _ =>
      dsimp only at hafter ⊢
      constructor
      · rintro ⟨rfl, cause, hcause⟩ ht
        have hgoes := (htaken y hmisfit ht).asked_or evals (slopes.push x) notes hshows
        rw [Array.size_push, hafter.2, hcause] at hgoes
        rcases hgoes with hne | ⟨answer, hanswer⟩
        · exact hne rfl
        · cases hanswer
      · intro ht
        obtain ⟨cause, hnext⟩ := hrefused y hmisfit ht
        rw [hnext] at hafter ⊢
        exact ⟨hafter.2.symm, cause, rfl⟩

end Search
end RootFinding
