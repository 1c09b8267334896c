import RootFinding.Proofs.Runs

/-!
# Pairs of searches

Two searches are compared node by node. What holds of such a pair of trees holds of their runs: the
same questions are asked as long as the callers answer alike, and the ends correspond.
-/
namespace RootFinding

/-- Results that are related, or failures for one cause. -/
inductive Corresponds {α β : Type} (R : α → β → Prop) :
    Except Failure α → Except Failure β → Prop
  | ok {x : α} {y : β} (h : R x y) : Corresponds R (.ok x) (.ok y)
  | error (cause : Failure) : Corresponds R (.error cause) (.error cause)

namespace Corresponds
variable {α β : Type} {R : α → β → Prop}

theorem of_eq {R : α → α → Prop} {e e' : Except Failure α} (h : e = e') (hR : ∀ x, R x x) :
    Corresponds R e e' := by
  subst h
  cases e with
  | ok x => exact .ok (hR x)
  | error cause => exact .error cause

end Corresponds

namespace Search
variable {Point Reading Reading' Site Slope Detail Detail' Answer Answer' Result : Type}
  {answers : Reading → Reading' → Prop} {ends : Answer → Answer' → Prop}

/-- Two searches that ask at the same points as long as the answers are related, report at the same
levels and come to related ends. -/
inductive Mirrored (answers : Reading → Reading' → Prop) (ends : Answer → Answer' → Prop) :
    Search Point Reading Site Slope Detail Answer →
      Search Point Reading' Site Slope Detail' Answer' → Prop
  | evaluate (x : Point) {next : Reading → Search Point Reading Site Slope Detail Answer}
    {next' : Reading' → Search Point Reading' Site Slope Detail' Answer'}
    (h : ∀ y y', answers y y' → Mirrored answers ends (next y) (next' y')) :
    Mirrored answers ends (.evaluate x next) (.evaluate x next')
  | slope (x : Site) {next : Slope → Search Point Reading Site Slope Detail Answer}
    {next' : Slope → Search Point Reading' Site Slope Detail' Answer'}
    (h : ∀ y, Mirrored answers ends (next y) (next' y)) :
    Mirrored answers ends (.slope x next) (.slope x next')
  | report {note : Note Detail} {note' : Note Detail'} (hlevel : note.level = note'.level)
    {next : Search Point Reading Site Slope Detail Answer}
    {next' : Search Point Reading' Site Slope Detail' Answer'}
    (h : Mirrored answers ends next next') :
    Mirrored answers ends (.report note next) (.report note' next')
  | fail (cause : Failure) : Mirrored answers ends (.fail cause) (.fail cause)
  | done {answer : Answer} {answer' : Answer'} (h : ends answer answer') :
    Mirrored answers ends (.done answer) (.done answer')

theorem attempt_congr {Result' : Type} {R : Result → Result' → Prop}
    {result : Except Failure Result} {result' : Except Failure Result'}
    {next : Result → Search Point Reading Site Slope Detail Answer}
    {next' : Result' → Search Point Reading Site Slope Detail Answer}
    (hr : Corresponds R result result') (h : ∀ x x', R x x' → next x = next' x') :
    attempt result next = attempt result' next' := by
  cases hr with
  | ok hx => exact h _ _ hx
  | error cause => rfl

/-- Searches are mirrored where what they depend on corresponds. -/
theorem Mirrored.attempt {Result' : Type} {R : Result → Result' → Prop}
    {result : Except Failure Result} {result' : Except Failure Result'}
    {next : Result → Search Point Reading Site Slope Detail Answer}
    {next' : Result' → Search Point Reading' Site Slope Detail' Answer'}
    (hr : Corresponds R result result')
    (h : ∀ x x', R x x' → Mirrored answers ends (next x) (next' x')) :
    Mirrored answers ends (attempt result next) (attempt result' next') := by
  cases hr with
  | ok hx => exact h _ _ hx
  | error cause => exact .fail cause

/-- Mirrored searches make the same calls and come to corresponding ends where the answers to the
calls correspond and notes are shown by their levels. -/
theorem Mirrored.runFrom {search : Search Point Reading Site Slope Detail Answer}
    {search' : Search Point Reading' Site Slope Detail' Answer'}
    (hm : Mirrored answers ends search search')
    {caller : Caller Point Reading Site Slope Detail}
    {caller' : Caller Point Reading' Site Slope Detail'} (hslope : caller.slope = caller'.slope)
    (hshows : ∀ note note', note.level = note'.level → caller.shows note = caller'.shows note')
    {evals : Array Point} {slopes : Array Site} {notes : Array (Note Detail)}
    {notes' : Array (Note Detail')}
    (hvalue : ∀ i x, (runFrom caller evals slopes notes search).evaluations[i]? = some x →
      Corresponds answers (caller.value i x) (caller'.value i x)) :
    (runFrom caller' evals slopes notes' search').evaluations =
        (runFrom caller evals slopes notes search).evaluations ∧
      (runFrom caller' evals slopes notes' search').slopes =
        (runFrom caller evals slopes notes search).slopes ∧
      Corresponds ends (runFrom caller evals slopes notes search).outcome
        (runFrom caller' evals slopes notes' search').outcome := by
  induction hm generalizing evals slopes notes notes' with
  | evaluate x h ih =>
    have hx := hvalue evals.size x (getElem?_evaluate x _)
    rw [Search.runFrom] at hvalue ⊢
    rw [Search.runFrom]
    generalize hv : caller.value evals.size x = result at hx hvalue
    generalize caller'.value evals.size x = result' at hx
    cases hx with
    | ok hy => exact ih _ _ hy hvalue
    | error cause => exact ⟨rfl, rfl, .error cause⟩
  | slope x h ih =>
    rw [Search.runFrom] at hvalue ⊢
    rw [Search.runFrom, ← hslope]
    cases hv : caller.slope slopes.size x with
    | ok y =>
      rw [hv] at hvalue
      exact ih y hvalue
    | error cause => exact ⟨rfl, rfl, .error cause⟩
  | @report note note' hlevel _ _ h ih =>
    rw [Search.runFrom] at hvalue ⊢
    rw [Search.runFrom, ← hshows note note' hlevel]
    cases hv : caller.shows note with
    | ok shown =>
      rw [hv] at hvalue
      cases shown with
      | true => exact ih hvalue
      | false => exact ih hvalue
    | error cause => exact ⟨rfl, rfl, .error cause⟩
  | fail cause => exact ⟨rfl, rfl, .error cause⟩
  | done h => exact ⟨rfl, rfl, .ok h⟩

theorem Mirrored.run {search : Search Point Reading Site Slope Detail Answer}
    {search' : Search Point Reading' Site Slope Detail' Answer'}
    (hm : Mirrored answers ends search search') (caller : Caller Point Reading Site Slope Detail)
    (caller' : Caller Point Reading' Site Slope Detail') (hslope : caller.slope = caller'.slope)
    (hshows : ∀ note note', note.level = note'.level → caller.shows note = caller'.shows note')
    (hvalue : ∀ i x, (search.run caller).evaluations[i]? = some x →
      Corresponds answers (caller.value i x) (caller'.value i x)) :
    (search'.run caller').evaluations = (search.run caller).evaluations ∧
      (search'.run caller').slopes = (search.run caller).slopes ∧
      Corresponds ends (search.run caller).outcome (search'.run caller').outcome :=
  hm.runFrom hslope hshows hvalue

/-- A run after as many other calls differs in those calls only. -/
theorem runFrom_append {caller : Caller Point Reading Site Slope Detail}
    (search : Search Point Reading Site Slope Detail Answer) {evals evals' : Array Point}
    {slopes : Array Site} {notes : Array (Note Detail)} (hsize : evals.size = evals'.size) :
    ∃ more, (runFrom caller evals slopes notes search).evaluations = evals ++ more ∧
      runFrom caller evals' slopes notes search =
        { runFrom caller evals slopes notes search with evaluations := evals' ++ more } := by
  induction search generalizing evals evals' slopes notes with
  | evaluate x next ih =>
    have hpush : (evals.push x).size = (evals'.push x).size := by simp [hsize]
    rw [runFrom, runFrom, ← hsize]
    cases caller.value evals.size x with
    | ok y =>
      obtain ⟨more, hmore, hrun⟩ := @ih y _ _ slopes notes hpush
      refine ⟨#[x] ++ more, ?_, ?_⟩
      · simp [hmore]
      · simp [hrun]
    | error cause => exact ⟨#[x], by simp, by simp⟩
  | slope x next ih =>
    rw [runFrom, runFrom]
    cases caller.slope slopes.size x with
    | ok y => exact ih y hsize
    | error cause => exact ⟨#[], by simp, by simp⟩
  | report note next ih =>
    rw [runFrom, runFrom]
    cases caller.shows note with
    | ok shown => cases shown <;> exact ih hsize
    | error cause => exact ⟨#[], by simp, by simp⟩
  | fail cause => exact ⟨#[], by simp [runFrom], by simp [runFrom]⟩
  | done answer => exact ⟨#[], by simp [runFrom], by simp [runFrom]⟩

end Search
end RootFinding
