import RootFinding.Proofs.Decoupled.Components
import RootFinding.Proofs.FixedPoint.Restart

/-!
# Decoupled problems

Where each equation of a system has one unknown of its own, a solver that finds all of them at once
does what solvers for the single ones do side by side: it calls its function at the points that
these would call theirs at, and goes on until all of them are converged.
-/
namespace RootFinding
open Number Search Iteration
variable {m n : ℕ} {σ : Fin m → Fin n} {g d : Fin n → Float → Float}

namespace Function

/-- A function without memory whose value has a component for each one of its argument, which
depends on that one alone. -/
def Componentwise (f : Function) (g : Fin n → Float → Float) : Prop :=
  ∀ (x : Fin n → Float) (number : Nat), ∃ answer,
    f { argument := .array (.ofFn x), number } = .ok answer ∧
      answer.toGrid = .ok (.ofFn fun i => g i (x i))

/-- A function without memory whose value is a banded Jacobian of one diagonal, each entry of which
depends on one component of the argument alone. -/
def DiagonalSlopes (f : Function) (d : Fin n → Float → Float) : Prop :=
  ∀ (x : Fin n → Float) (number : Nat), f { argument := .array (.ofFn x), number } =
    (Jacobian.ofDiagonals 0 0 [.ok (.ofFn fun i => d i (x i))]).map .jacobian

end Function

/-- A method for `n` equations with one unknown each, and the same method for some of them. -/
inductive Method.Selects (σ : Fin m → Fin n) (g d : Fin n → Float → Float) : Method → Method → Prop
  | steffensen {f f'} (hf : f.Componentwise g) (hf' : f'.Componentwise (g ∘ σ)) :
    Selects σ g d (.steffensen f) (.steffensen f')
  | wegstein {f f'} (hf : f.Componentwise g) (hf' : f'.Componentwise (g ∘ σ)) :
    Selects σ g d (.wegstein f) (.wegstein f')
  | sand {f f' jac jac'} (hf : f.Componentwise g) (hf' : f'.Componentwise (g ∘ σ))
    (hjac : jac.DiagonalSlopes d) (hjac' : jac'.DiagonalSlopes (d ∘ σ)) :
    Selects σ g d (.sand f jac) (.sand f' jac')

def Start.ToleranceSelects (σ : Fin m → Fin n) (start start' : Start) (v v' : Value) : Prop :=
  ∃ t : Fin n → Float, start.tolerance v = .ok (List.ofFn t) ∧
    start'.tolerance v' = .ok (List.ofFn (t ∘ σ))

/-- Arguments for `n` components and for some of them: starts and tolerances that are read as the
same numbers. -/
inductive Solver.ArgumentsSelect (σ : Fin m → Fin n) : List Value → List Value → Prop
  | intro {v v' tail tail'} {start start' : Start} {x : Fin n → Float}
    (hstart : Start.ofValue v = .ok start) (hx : start.point = List.ofFn x)
    (hstart' : Start.ofValue v' = .ok start') (hx' : start'.point = List.ofFn (x ∘ σ))
    (htail : List.Forall₂ (start.ToleranceSelects σ start') tail tail') :
    ArgumentsSelect σ (v :: tail) (v' :: tail')

/-- The runs for all components and for some of them: each call of the second is about the selected
components of the call of the same number of the first, and it converges where that does. -/
structure Run.Selects (σ : Fin m → Fin n) (options : RunOptions) (run run' : Run) : Prop where
  calls : ∀ (k : Nat) v', run'.evaluations[k]? = some v' → ∃ x : Fin n → Float,
    run.evaluations[k]? = some (.ofGrid (.ofFn x)) ∧ v' = .ofGrid (.ofFn (x ∘ σ))
  converges : options.Tells → ∀ answer, run.ConvergesTo answer →
    ∃ answer', run'.ConvergesTo answer'

namespace Run.Selects
variable {options : RunOptions} {run run' : Run}

theorem size_le (h : Run.Selects σ options run run') :
    run'.evaluations.size ≤ run.evaluations.size := by
  apply Nat.le_of_not_lt
  intro hlt
  obtain ⟨x, hx, -⟩ := h.calls run.evaluations.size _ (Array.getElem?_eq_getElem hlt)
  simp at hx

/-- A run that fails before its first call, next to another one. -/
theorem of_error {cause : Failure} (h : run.outcome = .error cause)
    (h' : run'.evaluations = #[]) : Run.Selects σ options run run' :=
  ⟨fun k v hv => by simp [h'] at hv,
    fun _ answer hanswer => absurd hanswer (not_convergesTo h answer)⟩

variable {Point Site Slope Detail : Type} {c : Comparison Point (Grid Float) Site Slope}
  {grid : Point → Grid Float} {form : Ending Point → Ending (Grid Float)} {s s' : Solver}
  {single single' : Bool} {line line' : Note Detail → String} {place place' : Site → Value}

theorem of_leads {trace trace' : Trace Point Site Detail (Ending Point)}
    (h : c.LeadsRun trace trace')
    (hgrid : ∀ x x', c.points x x' → Grid.Selects σ (grid x) (grid x'))
    (hform : ∀ e, (form e).point = grid e.point ∧ (form e).converged = e.converged)
    (hrun : run = .ofTrace line (.ofGrid <| grid ·) place
      (fun e => s.settleSystem options single (form e)) trace)
    (hrun' : run' = .ofTrace line' (.ofGrid <| grid ·) place'
      (fun e => s'.settleSystem options single' (form e)) trace')
    (hsingle' : single' = true → m = 1) : Run.Selects σ options run run' := by
  subst hrun hrun'
  constructor
  · intro k v' hv'
    rw [Run.ofTrace, Array.getElem?_map] at hv'
    obtain ⟨z, hz, rfl⟩ := Option.map_eq_some_iff.1 hv'
    obtain ⟨w, hw, hwz⟩ := h.calls k z hz
    obtain ⟨x, hx, hx'⟩ := hgrid w z hwz
    refine ⟨x, ?_, by rw [hx']⟩
    rw [Run.ofTrace, Array.getElem?_map, hw, ← hx]
    rfl
  · intro htells answer hanswer
    rw [convergesTo_iff (outcome_ofTrace ..) htells] at hanswer
    obtain ⟨_, hend, hconverged, -⟩ := hanswer
    obtain ⟨e, ho, rfl⟩ := exists_of_map_eq_ok hend
    rw [(hform e).2] at hconverged
    obtain ⟨e', w, ho', hconverged', hw⟩ := h.converged e ho hconverged
    obtain ⟨x, -, hx'⟩ := hgrid w e'.point hw
    obtain ⟨answer', hrestore⟩ : ∃ answer', restore (form e').point single' = .ok answer' := by
      rw [(hform e').1, hx']
      exact exists_restore fun hs => List.length_ofFn.trans (hsingle' hs)
    refine ⟨answer', (convergesTo_iff (outcome_ofTrace ..) htells answer').2
      ⟨form e', ?_, (hform e').2.trans hconverged', hrestore⟩⟩
    rw [ho']
    rfl

variable {caller caller' : Caller Point (Grid Float) Site Slope Detail}
  {search search' : Search Point (Grid Float) Site Slope Detail (Ending Point)}

/-- Runs of a search that leads another one. Both tell first what they are. -/
theorem of_searches (hleads : Leads c search search') (hc : c.Answers caller caller')
    (hnote : ∃ note next, search = .report note next)
    (hnote' : ∃ note next, search' = .report note next)
    (hshows : caller.shows = Progress.shows s.display)
    (hshows' : caller'.shows = Progress.shows s.display)
    (hgrid : ∀ x x', c.points x x' → Grid.Selects σ (grid x) (grid x'))
    (hform : ∀ e, (form e).point = grid e.point ∧ (form e).converged = e.converged)
    (hrun : run = .ofTrace line (.ofGrid <| grid ·) place
      (fun e => s.settleSystem options single (form e)) (search.run caller))
    (hrun' : run' = .ofTrace line' (.ofGrid <| grid ·) place'
      (fun e => s'.settleSystem options single' (form e)) (search'.run caller'))
    (hsingle' : single' = true → m = 1) : Run.Selects σ options run run' := by
  rcases s.displays_or with hs | ⟨cause, hmute⟩
  · obtain ⟨shown, hshown⟩ : ∃ shown : Note Detail → Bool, ∀ note,
        Progress.shows s.display note = .ok (shown note) := hs.shows
    exact of_leads (hleads.run hc (hshows ▸ hshown) (hshows' ▸ hshown)) hgrid hform hrun hrun'
      hsingle'
  · obtain ⟨note, next, rfl⟩ := hnote
    obtain ⟨note', next', rfl⟩ := hnote'
    have hnote : ∀ note : Note Detail, Progress.shows s.display note = .error cause :=
      fun note => hmute note.level
    subst hrun hrun'
    exact of_error (Run.ofTrace_mute (hshows ▸ hnote note) ..).2
      (Run.ofTrace_mute (hshows' ▸ hnote note') ..).1

end Run.Selects

section Callers
variable {s s' : Solver} {f f' jac jac' : Function}

theorem Function.Componentwise.value {f : Function} (hf : f.Componentwise g) (x : Fin n → Float)
    (number : Nat) :
    (do (← Solver.ask f none number (.ofFn x)).toGrid) = .ok (.ofFn fun i => g i (x i)) :=
  toGrid_ask_eq_ok.2 (hf x number)

theorem Function.DiagonalSlopes.slope (hjac : jac.DiagonalSlopes d) (x : Fin n → Float)
    (number : Nat) : (do return (← Solver.ask jac none number (.ofFn x)).toJacobian) =
      (.ok (.ok (.diagonal (.ofFn fun i => d i (x i)))) : Except Failure (Sand.Slope Float)) := by
  rw [Solver.ask, hjac x number, Jacobian.ofDiagonals_single]
  rfl

theorem Solver.answers_valueCaller (hf : f.Componentwise g) (hf' : f'.Componentwise (g ∘ σ)) :
    (Iteration.selection Float σ).Answers (s.valueCaller f) (s'.valueCaller f') where
  value number x x' := by
    rintro ⟨u, hu, hu'⟩
    refine ⟨.ofFn fun i => g i (u i), _, ?_, ?_, _, rfl, rfl⟩
    · dsimp only [valueCaller]
      rw [hu, hf.value]
    · dsimp only [valueCaller]
      rw [hu', hf'.value]
      rfl
  slope _ x := x.elim

theorem Solver.answers_flowCaller (hf : f.Componentwise g) (hf' : f'.Componentwise (g ∘ σ))
    (hjac : jac.DiagonalSlopes d) (hjac' : jac'.DiagonalSlopes (d ∘ σ)) :
    (Sand.selection Float σ).Answers (s.flowCaller f jac) (s'.flowCaller f' jac') where
  value number x x' := by
    rintro ⟨u, rfl, rfl⟩
    exact ⟨_, _, hf.value u number, hf'.value (u ∘ σ) number, _, rfl, rfl⟩
  slope number x x' := by
    rintro ⟨u, rfl, rfl⟩
    exact ⟨_, _, hjac.slope u number, hjac'.slope (u ∘ σ) number, _, _, rfl, rfl, _, rfl, rfl⟩

end Callers

theorem Solver.prepare_ofFn {v w : Value} {start : Start} {t : Fin n → Float}
    (hstart : Start.ofValue v = .ok start) (ht : start.tolerance w = .ok (List.ofFn t)) :
    prepare v w = .ok (start, List.ofFn t) := by
  simp only [prepare, hstart, ht, bind, Except.bind, pure, Except.pure]

theorem Solver.prepareRelative_ofFn {v absolute relative : Value} {start : Start}
    {a r : Fin n → Float} (hstart : Start.ofValue v = .ok start)
    (ha : start.tolerance absolute = .ok (List.ofFn a))
    (hr : start.tolerance relative = .ok (List.ofFn r)) :
    prepareRelative v absolute relative = .ok (start, List.ofFn fun i => ⟨a i, r i⟩) := by
  simp only [prepareRelative, prepare_ofFn hstart ha, hr, zipWith_ofFn, bind, Except.bind, pure,
    Except.pure]

theorem Start.eq_one_of_single {v : Value} {start : Start} {x : Fin m → Float}
    (h : Start.ofValue v = .ok start) (hx : start.point = List.ofFn x) (hs : start.single = true) :
    m = 1 := by
  rw [← Start.length_of_single h hs, hx, List.length_ofFn]

namespace Solver.ArgumentsSelect
variable {arguments arguments' : List Value}

/-- Arguments of a method for systems: both are too few or too many, or both are read. -/
theorem system_cases (h : ArgumentsSelect σ arguments arguments') :
    (∀ run, runSystem arguments run = .failed .argumentCount ∧
      runSystem arguments' run = .failed .argumentCount) ∨
    ∃ (start start' : Start) (t x : Fin n → Float), start.point = List.ofFn x ∧
      start'.point = List.ofFn (x ∘ σ) ∧ (start'.single = true → m = 1) ∧
      ∀ run, runSystem arguments run = run start (List.ofFn t) ∧
        runSystem arguments' run = run start' (List.ofFn (t ∘ σ)) := by
  obtain @⟨v, v', tail, tail', start, start', x, hstart, hx, hstart', hx', htail⟩ := h
  have hsingle := Start.eq_one_of_single hstart' hx'
  cases htail with
  | nil => exact .inl fun _ => ⟨rfl, rfl⟩
  | cons ht htail =>
    cases htail with
    | cons => exact .inl fun _ => ⟨rfl, rfl⟩
    | nil =>
      obtain ⟨t, ht, ht'⟩ := ht
      refine .inr ⟨start, start', t, x, hx, hx', hsingle, fun run => ⟨?_, ?_⟩⟩
      · rw [runSystem, prepare_ofFn hstart ht]
      · rw [runSystem, prepare_ofFn hstart' ht']

/-- Arguments of a fixed point method: both are too few or too many, or both are read. -/
theorem fixedPoint_cases (h : ArgumentsSelect σ arguments arguments') :
    (∀ (s s' : Solver) options f f' search,
      s.runFixedPoint options f arguments search = .failed .argumentCount ∧
        s'.runFixedPoint options f' arguments' search = .failed .argumentCount) ∨
    ∃ (start start' : Start) (tol : Fin n → Tolerance Float) (x : Fin n → Float),
      (start'.single = true → m = 1) ∧ ∀ (s s' : Solver) options f f' search,
        s.runFixedPoint options f arguments search =
            s.runValues options f start (search (List.ofFn tol) (List.ofFn x)) ∧
          s'.runFixedPoint options f' arguments' search =
            s'.runValues options f' start' (search (List.ofFn (tol ∘ σ)) (List.ofFn (x ∘ σ))) := by
  obtain @⟨v, v', tail, tail', start, start', x, hstart, hx, hstart', hx', htail⟩ := h
  have hsingle := Start.eq_one_of_single hstart' hx'
  cases htail with
  | nil => exact .inl fun _ _ _ _ _ _ => ⟨rfl, rfl⟩
  | cons ha htail =>
    cases htail with
    | nil => exact .inl fun _ _ _ _ _ _ => ⟨rfl, rfl⟩
    | cons hr htail =>
      cases htail with
      | cons => exact .inl fun _ _ _ _ _ _ => ⟨rfl, rfl⟩
      | nil =>
        obtain ⟨a, ha, ha'⟩ := ha
        obtain ⟨r, hr, hr'⟩ := hr
        refine .inr ⟨start, start', fun i => ⟨a i, r i⟩, x, hsingle,
          fun s s' options f f' search => ⟨?_, ?_⟩⟩
        · simp only [runFixedPoint, prepareRelative_ofFn hstart ha hr, hx]
        · simp only [runFixedPoint, prepareRelative_ofFn hstart' ha' hr', hx']
          rfl

end Solver.ArgumentsSelect

/-- A component on its own: its number, and for each tolerance the number that this is for it. -/
theorem Solver.ArgumentsSelect.of_numbers {v : Value} {tail : List Value} {start : Start}
    {x : Fin n → Float} {bounds : List (Fin n → Float)} (hstart : Start.ofValue v = .ok start)
    (hx : start.point = List.ofFn x)
    (htail : List.Forall₂ (fun w t => start.tolerance w = .ok (List.ofFn t)) tail bounds)
    (i : Fin n) : ArgumentsSelect (fun _ : Fin 1 => i) (v :: tail)
      (.ofFloat (x i) :: bounds.map fun t => .ofFloat (t i)) := by
  have hpart : Start.ofValue (.ofFloat (x i)) = .ok ⟨[x i], true⟩ := rfl
  refine .intro hstart hx hpart rfl ?_
  rw [List.forall₂_map_right_iff]
  exact htail.imp fun w t ht => ⟨t, ht, rfl⟩

section Parts
variable {s s' : Solver} {arguments arguments' : List Value} {options : RunOptions}
  {f f' jac jac' : Function}

/-- Runs of a fixed point method for all components and for some of them. -/
theorem Run.Selects.of_fixedPoint (hdisplay : s'.display = s.display)
    (harguments : Solver.ArgumentsSelect σ arguments arguments') (hf : f.Componentwise g)
    (hf' : f'.Componentwise (g ∘ σ))
    {search : List (Tolerance Float) → List Float →
      Iteration.Searching Float Empty Empty (List Float)}
    (hnote : ∀ tol x, ∃ note next, search tol x = .report note next)
    (hleads : ∀ (tol : Fin n → Tolerance Float) x, Leads (Iteration.selection Float σ)
      (search (List.ofFn tol) (List.ofFn x))
      (search (List.ofFn (tol ∘ σ)) (List.ofFn (x ∘ σ)))) :
    Run.Selects σ options (s.runFixedPoint options f arguments search)
      (s'.runFixedPoint options f' arguments' search) := by
  rcases harguments.fixedPoint_cases with hfail | ⟨start, start', tol, x, hsingle, hread⟩
  · obtain ⟨h, h'⟩ := hfail s s' options f f' search
    rw [h, h']
    exact .of_error rfl rfl
  · obtain ⟨h, h'⟩ := hread s s' options f f' search
    rw [h, h']
    have hgrid : ∀ x x', (Iteration.selection Float σ).points x x' →
        Grid.Selects σ (.vector x) (.vector x') := fun _ _ h => h
    have hform : ∀ e, (gridEnding e).point = .vector e.point ∧
        (gridEnding e).converged = e.converged := fun _ => ⟨rfl, rfl⟩
    have hshows : (s'.valueCaller f').shows = Progress.shows s.display := by
      rw [← hdisplay]
      rfl
    exact of_searches (hleads tol x) (Solver.answers_valueCaller hf hf') (hnote ..) (hnote ..) rfl
      hshows hgrid hform rfl rfl hsingle

/-- Runs along the flow for all components and for some of them. -/
theorem Run.Selects.of_flow (hlimit : s'.limit = s.limit) (hdisplay : s'.display = s.display)
    (harguments : Solver.ArgumentsSelect σ arguments arguments') (hf : f.Componentwise g)
    (hf' : f'.Componentwise (g ∘ σ)) (hjac : jac.DiagonalSlopes d)
    (hjac' : jac'.DiagonalSlopes (d ∘ σ)) :
    Run.Selects σ options
      (Solver.runSystem arguments fun start tol => s.runSand options f jac start tol)
      (Solver.runSystem arguments' fun start tol => s'.runSand options f' jac' start tol) := by
  rcases harguments.system_cases with hfail | ⟨start, start', t, x, hx, hx', hsingle, hread⟩
  · rw [(hfail _).1, (hfail _).2]
    exact .of_error rfl rfl
  · rw [(hread _).1, (hread _).2]
    have hgrid : ∀ x x', (Sand.selection Float σ).points x x' → Grid.Selects σ (id x) (id x') :=
      fun _ _ h => h
    have hform : ∀ e : Ending (Grid Float), (id e).point = id e.point ∧
        (id e).converged = e.converged := fun _ => ⟨rfl, rfl⟩
    have hshows : (s'.flowCaller f' jac').shows = Progress.shows s.display := by
      rw [← hdisplay]
      rfl
    have hleads : Leads (Sand.selection Float σ)
        (Sand.search s.limit.count (List.ofFn t) start.point)
        (Sand.search s'.limit.count (List.ofFn (t ∘ σ)) start'.point) := by
      rw [hlimit, hx, hx']
      exact .report (Sand.leads_iterate t _ 0 x)
    exact of_searches hleads (Solver.answers_flowCaller hf hf' hjac hjac') ⟨_, _, rfl⟩ ⟨_, _, rfl⟩
      rfl hshows hgrid hform rfl rfl hsingle

end Parts

namespace Solver
variable {s : Solver} {arguments : List Value} {options : RunOptions}

/-- A solver for `n` equations with one unknown each, and the same one for some of them. -/
theorem run_selects {part : Method} {arguments' : List Value} (hpart : s.method.Selects σ g d part)
    (harguments : ArgumentsSelect σ arguments arguments') (function : Option Function)
    (options : RunOptions) : Run.Selects σ options (s.run arguments function options)
      ({ s with method := part }.run arguments' function options) := by
  obtain ⟨method, limit, display⟩ := s
  cases hpart with
  | steffensen hf hf' =>
    exact .of_fixedPoint rfl harguments hf hf' (fun _ _ => ⟨_, _, rfl⟩) fun tol x =>
      .report (Steffensen.leads_iterate tol limit.count 0 x)
  | wegstein hf hf' =>
    exact .of_fixedPoint rfl harguments hf hf' (fun _ _ => ⟨_, _, rfl⟩) fun tol x =>
      Wegstein.leads_search tol limit.count x
  | sand hf hf' hjac hjac' => exact .of_flow rfl rfl harguments hf hf' hjac hjac'

/-- Where each of `n` equations has one unknown, a solver for all of them makes the calls of the
solvers for the single ones side by side, as long as these make any. Where it converges, so does
each of these, with no more calls. -/
theorem run_decoupled {parts : Fin n → Method} {partArguments : Fin n → List Value}
    (hparts : ∀ i, s.method.Selects (fun _ : Fin 1 => i) g d (parts i))
    (harguments : ∀ i, ArgumentsSelect (fun _ : Fin 1 => i) arguments (partArguments i))
    (function : Option Function) {run : Run} {runs : Fin n → Run}
    (hrun : s.run arguments function options = run)
    (hruns : ∀ i, { s with method := parts i }.run (partArguments i) function options = runs i) :
    (∀ i (k : Nat) v, (runs i).evaluations[k]? = some v → ∃ x : Fin n → Float,
      run.evaluations[k]? = some (.ofGrid (.ofFn x)) ∧ v = .ofGrid (.vector [x i])) ∧
    (options.Tells → ∀ answer, run.ConvergesTo answer → ∀ i,
      (∃ answer', (runs i).ConvergesTo answer') ∧
        (runs i).evaluations.size ≤ run.evaluations.size) := by
  have hselects : ∀ i, Run.Selects (fun _ : Fin 1 => i) options run (runs i) := by
    intro i
    rw [← hrun, ← hruns i]
    exact run_selects (hparts i) (harguments i) function options
  constructor
  · intro i k v hv
    exact (hselects i).calls k v hv
  · intro htells answer hanswer i
    exact ⟨(hselects i).converges htells answer hanswer, (hselects i).size_le⟩

end Solver

namespace Function

def ofComponents (g : Fin n → Float → Float) : Function := fun call =>
  match call.argument with
  | .array a =>
    .ok (.value (.list (List.zipWith (fun g x => .ofFloat (g x)) (List.ofFn g) a.entries)))
  | .number _ => .error .wrongKind

theorem componentwise_ofComponents (g : Fin n → Float → Float) :
    (ofComponents g).Componentwise g := by
  intro x number
  refine ⟨_, rfl, ?_⟩
  have hlist : List.zipWith (fun g x => Value.ofFloat (g x)) (List.ofFn g) (List.ofFn x) =
      (List.ofFn fun i => g i (x i)).map .ofFloat := by
    rw [zipWith_ofFn, List.map_ofFn]
    rfl
  change (Value.list (List.zipWith _ (List.ofFn g) (List.ofFn x))).toGrid = _
  rw [hlist, Value.toGrid_list_ofFloat]

end Function

def halfAndFourth : Fin 2 → Float → Float := ![fun a => a / 2 + 1, fun a => a / 4]

def componentSolver (g : Fin n → Float → Float) : Solver :=
  ⟨.steffensen (.ofComponents g), ⟨6, by decide⟩, .int 0⟩

/-- From one and three, the first component is converged after one call and waits for the second
one. -/
theorem run_decoupled_halfAndFourth :
    ∃ (run : Run) (runs : Fin 2 → Run),
      (componentSolver halfAndFourth).run [.list [.ofFloat 1, .ofFloat 3],
        .list [.ofFloat 10, .ofFloat 1e-9], .ofFloat 0] none { full := true } = run ∧
      (∀ i, (componentSolver fun _ : Fin 1 => halfAndFourth i).run
        [.ofFloat (![1, 3] i), .ofFloat (![10, 1e-9] i), .ofFloat 0] none { full := true } =
          runs i) ∧
      (∃ answer, run.ConvergesTo answer ∧ ∀ i, ∃ answer', (runs i).ConvergesTo answer') ∧
      run.evaluations.size = 3 ∧ (runs 0).evaluations.size = 1 ∧ (runs 1).evaluations.size = 3 := by
  have hparts : ∀ i, (componentSolver halfAndFourth).method.Selects (fun _ : Fin 1 => i)
      halfAndFourth (fun _ _ => 0) (.steffensen (.ofComponents fun _ : Fin 1 => halfAndFourth i)) :=
    fun i => .steffensen (Function.componentwise_ofComponents _)
      (Function.componentwise_ofComponents _)
  have harguments : ∀ i, Solver.ArgumentsSelect (fun _ : Fin 1 => i)
      [.list [.ofFloat 1, .ofFloat 3], .list [.ofFloat 10, .ofFloat 1e-9], .ofFloat 0]
      [.ofFloat (![1, 3] i), .ofFloat (![10, 1e-9] i), .ofFloat 0] := by
    have hstart : Start.ofValue (.list [.ofFloat 1, .ofFloat 3]) = .ok ⟨[1, 3], false⟩ := rfl
    have hbounds : List.Forall₂ (fun w t => Start.tolerance ⟨[1, 3], false⟩ w = .ok (List.ofFn t))
        [.list [.ofFloat 10, .ofFloat 1e-9], .ofFloat 0]
        [![(10 : Float), 1e-9], fun _ : Fin 2 => 0] := by
      refine .cons ?_ (.cons ?_ .nil)
      · rfl
      · rfl
    exact .of_numbers hstart rfl hbounds
  have hrun : (componentSolver halfAndFourth).run [.list [.ofFloat 1, .ofFloat 3],
      .list [.ofFloat 10, .ofFloat 1e-9], .ofFloat 0] none { full := true } = _ := rfl
  obtain ⟨-, hconverges⟩ := Solver.run_decoupled hparts harguments none hrun fun _ => rfl
  obtain ⟨answer, hanswer⟩ := Run.exists_convergesTo (by decide +kernel : Run.isConverged
    ((componentSolver halfAndFourth).run [.list [.ofFloat 1, .ofFloat 3],
        .list [.ofFloat 10, .ofFloat 1e-9], .ofFloat 0] none { full := true }) = true)
  refine ⟨_, _, rfl, fun _ => rfl, ⟨answer, hanswer, fun i => ?_⟩, ?_, ?_, ?_⟩
  · exact (hconverges (.inl rfl) answer hanswer i).1
  · decide +kernel
  · decide +kernel
  · decide +kernel

end RootFinding
