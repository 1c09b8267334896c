import RootFinding.Proofs.Iteration.FirstPass

/-!
# Searches that lead others

A search leads another one where both ask questions that compare, as long as their answers do, and
the other one may only stop earlier, when it is converged. What is shown of the two does not matter.
-/
namespace RootFinding.Search
variable {Point Reading Site Slope Detail : Type}

/-- How the questions of a search and the answers to them compare with those of another. -/
structure Comparison (Point Reading Site Slope : Type) where
  points : Point → Point → Prop
  readings : Reading → Reading → Prop
  sites : Site → Site → Prop
  slopes : Slope → Slope → Prop

variable (c : Comparison Point Reading Site Slope)

/-- A search that leads another one. They give up together, and the other one converges no later,
at a point that compares with some point. -/
inductive Leads : Search Point Reading Site Slope Detail (Ending Point) →
    Search Point Reading Site Slope Detail (Ending Point) → Prop
  | evaluate {x x' next next'} (hx : c.points x x')
    (h : ∀ y y', c.readings y y' → Leads (next y) (next' y')) :
    Leads (.evaluate x next) (.evaluate x' next')
  | slope {x x' next next'} (hx : c.sites x x')
    (h : ∀ y y', c.slopes y y' → Leads (next y) (next' y')) :
    Leads (.slope x next) (.slope x' next')
  | report {note note' next next'} (h : Leads next next') :
    Leads (.report note next) (.report note' next')
  | stopped {search search' x e} (hend : EndsWith e search') (he : e.converged = true)
    (hx : c.points x e.point) : Leads search search'
  | exhausted {e e'} (he : e.converged = false) : Leads (.done e) (.done e')

/-- Callers whose answers compare wherever their questions do. -/
structure Comparison.Answers (caller caller' : Caller Point Reading Site Slope Detail) : Prop where
  value : ∀ number x x', c.points x x' → ∃ y y', caller.value number x = .ok y ∧
    caller'.value number x' = .ok y' ∧ c.readings y y'
  slope : ∀ number x x', c.sites x x' → ∃ y y', caller.slope number x = .ok y ∧
    caller'.slope number x' = .ok y' ∧ c.slopes y y'

/-- Calls each of which compares with the one of the same number among others. -/
def Comparison.Under (calls calls' : Array Point) : Prop :=
  ∀ (k : Nat) (x' : Point), calls'[k]? = some x' → ∃ x, calls[k]? = some x ∧ c.points x x'

/-- A run that leads another one: the calls of that compare with its own ones, and where it
converges, so does the other one. -/
structure Comparison.LeadsRun (trace trace' : Trace Point Site Detail (Ending Point)) : Prop where
  calls : c.Under trace.evaluations trace'.evaluations
  converged : ∀ e, trace.outcome = .ok e → e.converged = true →
    ∃ e' x, trace'.outcome = .ok e' ∧ e'.converged = true ∧ c.points x e'.point

variable {c}

theorem Comparison.Under.push {calls calls' : Array Point} (h : c.Under calls calls')
    (hsize : calls'.size = calls.size) {x x' : Point} (hx : c.points x x') :
    c.Under (calls.push x) (calls'.push x') := by
  intro k z hz
  rw [Array.getElem?_push] at hz
  by_cases hk : k = calls'.size
  · rw [if_pos hk] at hz
    cases hz
    exact ⟨x, by rw [Array.getElem?_push, if_pos (hk.trans hsize)], hx⟩
  · rw [if_neg hk] at hz
    obtain ⟨w, hw, hwz⟩ := h k z hz
    exact ⟨w, by rw [Array.getElem?_push, if_neg (hsize ▸ hk), hw], hwz⟩

/-- One search leads another past a test that the other one passes wherever the first one does. -/
theorem Leads.test {passed passed' : Bool} (h : passed = true → passed' = true)
    {stop stop' next next' : Search Point Reading Site Slope Detail (Ending Point)}
    {e : Ending Point} {x : Point} (hend : EndsWith e stop') (he : e.converged = true)
    (hx : c.points x e.point) (hnext : Leads c next next') :
    Leads c (if passed then stop else next) (if passed' then stop' else next') := by
  cases hp : passed' with
  | true => exact .stopped hend he hx
  | false =>
    have hp' : passed = false := Bool.eq_false_iff.2 fun h' => by simp [h h'] at hp
    rw [hp']
    exact hnext

variable {caller caller' : Caller Point Reading Site Slope Detail}
  {shown : Note Detail → Bool} {evals evals' : Array Point} {slopes slopes' : Array Site}
  {notes notes' : Array (Note Detail)}
  {search search' : Search Point Reading Site Slope Detail (Ending Point)}

/-- The runs of a search and of one that it leads, after as many questions. -/
theorem Leads.runFrom (h : Leads c search search') (hc : c.Answers caller caller')
    (hs : ∀ note, caller.shows note = .ok (shown note))
    (hs' : ∀ note, caller'.shows note = .ok (shown note)) (hcalls : c.Under evals evals')
    (hevals : evals'.size = evals.size) (hslopes : slopes'.size = slopes.size) :
    c.LeadsRun (runFrom caller evals slopes notes search)
      (runFrom caller' evals' slopes' notes' search') := by
  induction h generalizing evals evals' slopes slopes' notes notes' with
  | evaluate hx _ ih =>
    obtain ⟨y, y', hy, hy', hyy⟩ := hc.value evals.size _ _ hx
    rw [Search.runFrom, Search.runFrom, hevals, hy, hy']
    exact ih y y' hyy (hcalls.push hevals hx) (by simp [hevals]) hslopes
  | slope hx _ ih =>
    obtain ⟨y, y', hy, hy', hyy⟩ := hc.slope slopes.size _ _ hx
    rw [Search.runFrom, Search.runFrom, hslopes, hy, hy']
    exact ih y y' hyy hcalls hevals (by simp [hslopes])
  | report _ ih =>
    rw [runFrom_report hs, runFrom_report hs']
    exact ih hcalls hevals hslopes
  | @stopped search search' x e hend he hx =>
    obtain ⟨hevaluations, ho⟩ := hend.runFrom evals' slopes' notes' hs'
    refine ⟨fun k z hz => ?_, fun _ _ _ => ⟨e, x, ho, he, hx⟩⟩
    rw [hevaluations] at hz
    obtain ⟨w, hw, hwz⟩ := hcalls k z hz
    rw [← Array.getElem?_toList] at hw ⊢
    exact ⟨w, getElem?_prefix_eq_some (prefix_evaluations search) hw, hwz⟩
  | exhausted he =>
    refine ⟨hcalls, fun e ho hconverged => ?_⟩
    cases ho
    rw [he] at hconverged
    cases hconverged

theorem Leads.run (h : Leads c search search') (hc : c.Answers caller caller')
    (hs : ∀ note, caller.shows note = .ok (shown note))
    (hs' : ∀ note, caller'.shows note = .ok (shown note)) :
    c.LeadsRun (search.run caller) (search'.run caller') :=
  h.runFrom hc hs hs' (by intro k x hx; simp at hx) rfl rfl

end RootFinding.Search
