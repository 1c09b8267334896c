import RootFinding.Search

/-!
# Runs of searches

A run keeps what it has seen, and it depends on the functions of its caller only through the calls
that it makes.
-/
namespace RootFinding

theorem getElem?_prefix_eq_some {α : Type} {xs ys : List α} (h : xs <+: ys) {i : Nat} {x : α}
    (hx : xs[i]? = some x) : ys[i]? = some x := by
  obtain ⟨hi, hx⟩ := List.getElem?_eq_some_iff.1 hx
  rw [List.prefix_iff_getElem?.1 h i hi, hx]

theorem exists_of_bind_eq_ok {ε α β : Type} {e : Except ε α} {f : α → Except ε β} {b : β}
    (h : e >>= f = .ok b) : ∃ a, e = .ok a ∧ f a = .ok b := by
  cases e with
  | ok a => exact ⟨a, rfl, h⟩
  | error cause => cases h

theorem exists_of_map_eq_ok {ε α β : Type} {e : Except ε α} {f : α → β} {b : β}
    (h : e.map f = .ok b) : ∃ a, e = .ok a ∧ f a = b := by
  cases e with
  | ok a => exact ⟨a, rfl, Except.ok.inj h⟩
  | error cause => cases h

namespace Search
variable {Point Reading Site Slope Detail Answer : Type}
  {caller caller' : Caller Point Reading Site Slope Detail} {evals : Array Point}
  {slopes : Array Site} {notes : Array (Note Detail)}

theorem prefix_evaluations (search : Search Point Reading Site Slope Detail Answer) :
    evals.toList <+: (runFrom caller evals slopes notes search).evaluations.toList := by
  induction search generalizing evals slopes notes with
  | evaluate x next ih =>
    have hpush : evals.toList <+: (evals.push x).toList := by
      rw [Array.toList_push]
      exact List.prefix_append ..
    rw [runFrom]
    cases caller.value evals.size x with
    | ok y => exact hpush.trans (ih y)
    | error cause => exact hpush
  | slope x next ih =>
    rw [runFrom]
    cases caller.slope slopes.size x with
    | ok y => exact ih y
    | error cause => exact List.prefix_refl _
  | report note next ih =>
    rw [runFrom]
    cases caller.shows note with
    | ok shown => cases shown <;> exact ih
    | error cause => exact List.prefix_refl _
  | fail cause => exact List.prefix_refl _
  | done answer => exact List.prefix_refl _

theorem prefix_evaluate (x : Point)
    (next : Reading → Search Point Reading Site Slope Detail Answer) :
    evals.toList ++ [x] <+:
      (runFrom caller evals slopes notes (.evaluate x next)).evaluations.toList := by
  rw [runFrom, ← Array.toList_push]
  cases caller.value evals.size x with
  | ok y => exact prefix_evaluations (next y)
  | error cause => exact List.prefix_refl _

theorem getElem?_evaluate (x : Point)
    (next : Reading → Search Point Reading Site Slope Detail Answer) :
    (runFrom caller evals slopes notes (.evaluate x next)).evaluations[evals.size]? = some x := by
  rw [← Array.getElem?_toList]
  refine getElem?_prefix_eq_some (prefix_evaluate x next) ?_
  rw [← Array.length_toList, List.getElem?_concat_length]

theorem prefix_slopes (search : Search Point Reading Site Slope Detail Answer) :
    slopes.toList <+: (runFrom caller evals slopes notes search).slopes.toList := by
  induction search generalizing evals slopes notes with
  | evaluate x next ih =>
    rw [runFrom]
    cases caller.value evals.size x with
    | ok y => exact ih y
    | error cause => exact List.prefix_refl _
  | slope x next ih =>
    have hpush : slopes.toList <+: (slopes.push x).toList := by
      rw [Array.toList_push]
      exact List.prefix_append ..
    rw [runFrom]
    cases caller.slope slopes.size x with
    | ok y => exact hpush.trans (ih y)
    | error cause => exact hpush
  | report note next ih =>
    rw [runFrom]
    cases caller.shows note with
    | ok shown => cases shown <;> exact ih
    | error cause => exact List.prefix_refl _
  | fail cause => exact List.prefix_refl _
  | done answer => exact List.prefix_refl _

/-- The next slope asked for is seen right after the ones before it. -/
theorem getElem?_slope (x : Site) (next : Slope → Search Point Reading Site Slope Detail Answer) :
    (runFrom caller evals slopes notes (.slope x next)).slopes[slopes.size]? = some x := by
  have hpush : slopes.toList ++ [x] <+:
      (runFrom caller evals slopes notes (.slope x next)).slopes.toList := by
    rw [runFrom, ← Array.toList_push]
    cases caller.slope slopes.size x with
    | ok y => exact prefix_slopes (next y)
    | error cause => exact List.prefix_refl _
  rw [← Array.getElem?_toList]
  refine getElem?_prefix_eq_some hpush ?_
  rw [← Array.length_toList, List.getElem?_concat_length]

/-- Where every note can be shown or not, a report makes no other difference. -/
theorem runFrom_report {shown : Note Detail → Bool}
    (hs : ∀ note, caller.shows note = .ok (shown note)) (note : Note Detail)
    (next : Search Point Reading Site Slope Detail Answer) :
    runFrom caller evals slopes notes (.report note next) =
      runFrom caller evals slopes (if shown note then notes.push note else notes) next := by
  rw [runFrom, hs]
  cases shown note <;> rfl

/-- Callers with the same answers to the calls of a run make the same run. -/
theorem runFrom_congr (hslope : caller.slope = caller'.slope)
    (hshows : caller.shows = caller'.shows)
    (search : Search Point Reading Site Slope Detail Answer)
    (h : ∀ i x, (runFrom caller evals slopes notes search).evaluations[i]? = some x →
      caller.value i x = caller'.value i x) :
    runFrom caller evals slopes notes search = runFrom caller' evals slopes notes search := by
  induction search generalizing evals slopes notes with
  | evaluate x next ih =>
    have hx := h evals.size x (getElem?_evaluate x next)
    rw [runFrom] at h
    rw [runFrom, runFrom, ← hx]
    cases hv : caller.value evals.size x with
    | ok y =>
      rw [hv] at h
      exact ih y h
    | error cause => rfl
  | slope x next ih =>
    rw [runFrom] at h
    rw [runFrom, runFrom, ← hslope]
    cases hv : caller.slope slopes.size x with
    | ok y =>
      rw [hv] at h
      exact ih y h
    | error cause => rfl
  | report note next ih =>
    rw [runFrom] at h
    rw [runFrom, runFrom, ← hshows]
    cases hv : caller.shows note with
    | ok shown =>
      rw [hv] at h
      cases shown with
      | true => exact ih h
      | false => exact ih h
    | error cause => rfl
  | fail cause => rfl
  | done answer => rfl

theorem run_congr (hslope : caller.slope = caller'.slope) (hshows : caller.shows = caller'.shows)
    (search : Search Point Reading Site Slope Detail Answer)
    (h : ∀ i x, (run caller search).evaluations[i]? = some x →
      caller.value i x = caller'.value i x) : run caller search = run caller' search :=
  runFrom_congr hslope hshows search h

end Search
end RootFinding
