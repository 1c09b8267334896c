import RootFinding.Proofs.Iteration.Criteria
import RootFinding.Proofs.Iteration.ReadBack

/-!
# Solvers that test their calls

Newton's method, the flow of its correction, Steffensen's and Wegstein's methods test each value
that their function answers. What they go by is read off the method and the arguments; a run is then
the list of its calls with an outcome that follows from the first of them that passes.
-/
namespace RootFinding
open Number Search

/-- What a solver that tests its calls goes by: the function that it calls, its start, and the test
of a point with the value there. -/
structure Criterion where
  value : Function
  start : Start
  test : List Float → List Float → Bool

/-- The criterion of a solver that tests each of its calls, for arguments that it accepts. -/
def Solver.criterion? (s : Solver) (arguments : List Value) : Option Criterion :=
  match s.method, arguments with
  | .newton f _, [x, tol] | .sand f _, [x, tol] =>
    match prepare x tol with
    | .ok (start, tol) => some ⟨f, start, fun _ fx => Newton.isRoot tol fx⟩
    | .error _ => none
  | .steffensen f, [x, absolute, relative] | .wegstein f, [x, absolute, relative] =>
    match prepareRelative x absolute relative with
    | .ok (start, tol) => some ⟨f, start, fun x y => Tolerance.within tol y x⟩
    | .error _ => none
  | _, _ => none

/-- A call at a point passes: it is answered in the shape of the point and within tolerance. -/
def Criterion.PassesAt (c : Criterion) (number : Nat) (x : Grid Float) : Prop :=
  ∃ answer y, c.value { argument := .array x, number } = .ok answer ∧ answer.toGrid = .ok y ∧
    y.shape = x.shape ∧ c.test x.entries y.entries = true

def Function.Memoryless (f : Function) : Prop :=
  ∀ call number, f { call with number } = f call

/-- The Jacobians that a run along the flow was given have corrections of `n` components. -/
def Solver.KeepsShape (s : Solver) (n : Nat) (run : Run) : Prop :=
  ∀ f g, s.method = .sand f g → ∀ number (x : Grid Float) answer, x.shape = [n] →
    run.slopes[number]? = some (.ofGrid x) → Solver.ask g none number x = .ok answer →
      Sand.Keeps n answer.toJacobian

def Solver.Displays (s : Solver) : Prop :=
  ∃ shown : Nat → Bool, ∀ level : Nat, Value.isAtMost (.int level) s.display = .ok (shown level)

/-- A display level that is no number cannot be compared with any level. -/
theorem Solver.displays_or (s : Solver) :
    s.Displays ∨ ∃ cause, ∀ level : Nat, Value.isAtMost (.int level) s.display = .error cause := by
  unfold Displays
  cases s.display with
  | real x => exact .inl ⟨fun _ => _, fun _ => rfl⟩
  | int n => exact .inl ⟨fun _ => _, fun _ => rfl⟩
  | truth b => exact .inl ⟨fun _ => _, fun _ => rfl⟩
  | _ => exact .inr ⟨.wrongKind, fun _ => rfl⟩

theorem Solver.Displays.shows {s : Solver} (h : s.Displays) {Detail : Type} :
    ∃ shown : Note Detail → Bool, ∀ note, Progress.shows s.display note = .ok (shown note) := by
  obtain ⟨shown, hshown⟩ := h
  exact ⟨fun note => shown note.level, fun note => hshown note.level⟩

variable {s : Solver} {options : RunOptions} {arguments : List Value} {c : Criterion} {run : Run}

/-- How a solver comes by its criterion, one case for each method that tests its calls. -/
inductive Solver.Tests (s : Solver) : List Value → Criterion → Prop
  | newton {f g x tol start bounds} (hm : s.method = .newton f g)
    (h : Solver.prepare x tol = .ok (start, bounds)) :
    Tests s [x, tol] ⟨f, start, fun _ fx => Newton.isRoot bounds fx⟩
  | sand {f g x tol start bounds} (hm : s.method = .sand f g)
    (h : Solver.prepare x tol = .ok (start, bounds)) :
    Tests s [x, tol] ⟨f, start, fun _ fx => Newton.isRoot bounds fx⟩
  | steffensen {f x absolute relative start tol} (hm : s.method = .steffensen f)
    (h : Solver.prepareRelative x absolute relative = .ok (start, tol)) :
    Tests s [x, absolute, relative] ⟨f, start, fun x y => Tolerance.within tol y x⟩
  | wegstein {f x absolute relative start tol} (hm : s.method = .wegstein f)
    (h : Solver.prepareRelative x absolute relative = .ok (start, tol)) :
    Tests s [x, absolute, relative] ⟨f, start, fun x y => Tolerance.within tol y x⟩

theorem Solver.tests_of_criterion? (hc : s.criterion? arguments = some c) :
    s.Tests arguments c := by
  unfold criterion? at hc
  split at hc
  · split at hc <;> cases hc
    exact .newton ‹_› ‹_›
  · split at hc <;> cases hc
    exact .sand ‹_› ‹_›
  · split at hc <;> cases hc
    exact .steffensen ‹_› ‹_›
  · split at hc <;> cases hc
    exact .wegstein ‹_› ‹_›
  · cases hc

/-- A run that made these calls and came to this outcome, by the criterion of its solver. -/
structure Criterion.Decides (c : Criterion) (s : Solver) (options : RunOptions) (run : Run)
    (calls : Array (Grid Float)) (outcome : Except Failure (Ending (Grid Float))) : Prop where
  evaluations : run.evaluations = calls.map .ofGrid
  settled : run.outcome = outcome.bind (s.settleSystem options c.start.single)
  first : calls[0]? = some (.vector c.start.point)
  shape : s.KeepsShape c.start.point.length run → ∀ x ∈ calls, x.shape = [c.start.point.length]
  firstPass : ∃ passes : Nat → Grid Float → Prop, ∃ rounds : Nat → Nat, rounds 1 = 0 ∧
    FirstPass passes rounds 0 calls outcome ∧
    ∀ i x, x.shape = [c.start.point.length] → (passes i x ↔ c.PassesAt i x)

theorem toGrid_ask_eq_ok {f : Function} {number : Nat} {x y : Grid Float} :
    (do (← Solver.ask f none number x).toGrid) = Except.ok y ↔
      ∃ answer, f { argument := .array x, number } = .ok answer ∧ answer.toGrid = .ok y := by
  constructor
  · exact exists_of_bind_eq_ok
  · rintro ⟨answer, hanswer, hy⟩
    rw [Solver.ask, hanswer]
    exact hy

def gridEnding (e : Ending (List Float)) : Ending (Grid Float) :=
  { e with point := .vector e.point }

section Vectors
variable {Site Slope Detail : Type} {caller : Caller (List Float) (Grid Float) Site Slope Detail}
  {search : Iteration.Searching Float Site Slope Detail} {rounds : Nat → Nat}

/-- A run made of a search over vectors that tests its calls and keeps their length. -/
theorem Criterion.decides_vectors (line : Note Detail → String) (site : Site → Value)
    (hs : s.Displays) (hshows : caller.shows = Progress.shows s.display)
    (hvalue : ∀ number x, caller.value number x =
      do (← Solver.ask c.value none number (.vector x)).toGrid)
    (ht : Tests (Iteration.measured c.test) rounds 0 search) (hrounds : rounds 1 = 0)
    (hstart : StartsAt c.start.point search)
    (hasks : Asks (fun x : List Float => x.length = c.start.point.length) (fun _ _ => True)
      search) :
    ∃ calls outcome, c.Decides s options
      (.ofTrace line (.ofGrid <| .vector ·) site
        (fun e => s.settleSystem options c.start.single { e with point := .vector e.point })
        (search.run caller)) calls outcome := by
  obtain ⟨shown, hshown⟩ : ∃ shown : Note Detail → Bool, ∀ note,
      caller.shows note = .ok (shown note) := hshows ▸ hs.shows
  have htests : Tests (Iteration.measured c.test) rounds (#[] : Array (List Float)).size search :=
    ht
  have hpass : ∀ i x, c.PassesAt i (.vector x) ↔
      Search.PassesAt caller (Iteration.measured c.test) i x := by
    intro i x
    simp only [PassesAt, Search.PassesAt, hvalue, toGrid_ask_eq_ok, Iteration.measured_iff]
    constructor
    · rintro ⟨answer, y, hanswer, hy, hshape, htest⟩
      exact ⟨y, ⟨answer, hanswer, hy⟩, hshape, htest⟩
    · rintro ⟨y, ⟨answer, hanswer, hy⟩, hshape, htest⟩
      exact ⟨answer, y, hanswer, hy, hshape, htest⟩
  refine ⟨(search.run caller).evaluations.map Grid.vector,
    (search.run caller).outcome.map gridEnding, ?_, ?_, ?_, ?_, c.PassesAt, rounds, hrounds, ?_,
    fun _ _ _ => Iff.rfl⟩
  · simp [Run.ofTrace, Function.comp_def]
  · cases h : (search.run caller).outcome <;>
      simp [Run.ofTrace, h, Except.bind, Except.map, gridEnding]
  · have hfirst : (search.run caller).evaluations[0]? = some c.start.point :=
      hstart.getElem?_runFrom hshown
    simp [hfirst]
  · intro _ x hx
    obtain ⟨y, hy, rfl⟩ := Array.mem_map.1 hx
    have hlen : ∀ z ∈ (search.run caller).evaluations, z.length = c.start.point.length :=
      hasks.forall_evaluations (fun _ _ _ _ _ => trivial) (by simp)
    simpa [Grid.vector] using hlen y hy
  · exact (Tests.firstPass hshown htests).map Grid.vector fun i x _ => hpass i x

end Vectors

/-- The test along the flow is the test of Newton's method at vectors. -/
theorem Sand.test_vector {tol : List Float} {x fx : Grid Float} (hx : x.shape = [tol.length]) :
    Sand.test (.vector tol) x fx = true ↔
      fx.shape = x.shape ∧ Newton.isRoot tol fx.entries = true := by
  rw [Sand.test_iff]
  refine and_congr_right fun hfx => ?_
  obtain ⟨below, hb, -, hentries⟩ := Grid.zipWith?_of_shape_eq
    (fun f t : Float => decide (Scalar.abs f < t)) fx (.vector tol) (hfx.trans hx)
  have hroot : Sand.isRoot (.vector tol) fx = .ok (below.entries.all id) := by
    simp only [Sand.isRoot, Sand.combine, hb]
    rfl
  rw [hroot, hentries]
  simp [Newton.isRoot]

def Solver.flowCaller (s : Solver) (f g : Function) :
    Caller (Grid Float) (Grid Float) (Grid Float) (Sand.Slope Float) (Grid Float × Grid Float) where
  value number x := do (← Solver.ask f none number x).toGrid
  slope number x := do return (← Solver.ask g none number x).toJacobian
  shows := Progress.shows s.display

section Flow
variable {f g : Function} {tol : List Float}

/-- The slopes that a search along the flow was given keep the shape where those of its run do. -/
theorem Solver.KeepsShape.keeping {n number : Nat} {run : Run} {slopes : Array (Grid Float)}
    {x : Grid Float} {slope : Sand.Slope Float} (hkeeps : s.KeepsShape n run)
    (hm : s.method = .sand f g) (hslopes : run.slopes = slopes.map .ofGrid)
    (hx : slopes[number]? = some x) (hslope : (s.flowCaller f g).slope number x = .ok slope) :
    Sand.Keeping n x slope := by
  intro hshape
  obtain ⟨answer, hanswer, hslope⟩ := exists_of_bind_eq_ok hslope
  cases hslope
  refine hkeeps f g hm number x answer hshape ?_ hanswer
  simp [hslopes, hx]

/-- Along the flow, the points are of the shape of the start where the Jacobians keep it. -/
theorem Solver.shape_of_flow {start : Start} (hm : s.method = .sand f g)
    (hkeeps : s.KeepsShape start.point.length (s.runSand options f g start tol)) :
    ∀ x ∈ ((Sand.search s.limit.count tol start.point).run (s.flowCaller f g)).evaluations,
      x.shape = [start.point.length] := by
  have hasks : Asks (fun x : Grid Float => x.shape = [start.point.length])
      (Sand.Keeping start.point.length) (Sand.search s.limit.count tol start.point) :=
    .report (Sand.asks_iterate _ _ _ rfl)
  exact hasks.forall_evaluations (fun _ _ _ hx hslope => hkeeps.keeping hm rfl hx hslope)
    (by simp)

/-- Along the flow, a call at a vector passes by the test of Newton's method. -/
theorem Criterion.passesAt_flow {start : Start} {i : Nat} {x : Grid Float}
    (hx : x.shape = [tol.length]) :
    Search.PassesAt (s.flowCaller f g) (Sand.test (.vector tol)) i x ↔
      Criterion.PassesAt ⟨f, start, fun _ fx => Newton.isRoot tol fx⟩ i x := by
  simp only [PassesAt, Search.PassesAt, Solver.flowCaller, toGrid_ask_eq_ok, Sand.test_vector hx]
  constructor
  · rintro ⟨y, ⟨answer, hanswer, hy⟩, htest⟩
    exact ⟨answer, y, hanswer, hy, htest⟩
  · rintro ⟨answer, y, hanswer, hy, htest⟩
    exact ⟨y, ⟨answer, hanswer, hy⟩, htest⟩

theorem Criterion.decides_flow {start : Start} (hm : s.method = .sand f g)
    (htol : tol.length = start.point.length) (hs : s.Displays) :
    ∃ calls outcome, Criterion.Decides ⟨f, start, fun _ fx => Newton.isRoot tol fx⟩ s options
      (s.runSand options f g start tol) calls outcome := by
  obtain ⟨shown, hshown⟩ : ∃ shown : Note (Grid Float × Grid Float) → Bool, ∀ note,
      (s.flowCaller f g).shows note = .ok (shown note) := hs.shows
  obtain ⟨limit, hlimit⟩ := Nat.exists_eq_add_of_le' s.limit.positive
  have htests : Tests (Sand.test (.vector tol)) (· - 1) (#[] : Array (Grid Float)).size
      (Sand.search s.limit.count tol start.point) := .report (Sand.tests_iterate ..)
  have hstart : StartsAt (.vector start.point) (Sand.search s.limit.count tol start.point) := by
    rw [Sand.search, hlimit]
    exact .report .evaluate
  refine ⟨((Sand.search s.limit.count tol start.point).run (s.flowCaller f g)).evaluations,
    ((Sand.search s.limit.count tol start.point).run (s.flowCaller f g)).outcome, rfl, rfl,
    hstart.getElem?_runFrom hshown, Solver.shape_of_flow hm,
    Search.PassesAt (s.flowCaller f g) (Sand.test (.vector tol)), (· - 1), rfl,
    Tests.firstPass hshown htests, fun i x hx => passesAt_flow ?_⟩
  rw [htol]
  exact hx

end Flow

/-- Another start with as many components has the same tolerances. -/
theorem Solver.prepare_restart {x tol : Value} {start : Start} {bounds : List Float}
    (h : Solver.prepare x tol = .ok (start, bounds)) :
    Start.ofValue x = .ok start ∧ bounds.length = start.point.length ∧
      ∀ y start', Start.ofValue y = .ok start' → start'.point.length = start.point.length →
        Solver.prepare y tol = .ok (start', bounds) := by
  obtain ⟨start', hstart, h⟩ := exists_of_bind_eq_ok h
  obtain ⟨bounds', hbounds, h⟩ := exists_of_bind_eq_ok h
  cases h
  refine ⟨hstart, Start.length_of_tolerance hbounds, fun y start' hy hlen => ?_⟩
  rw [← Start.tolerance_congr hlen] at hbounds
  rw [Solver.prepare, hy]
  change (do return (start', ← start'.tolerance tol)) = _
  rw [hbounds]
  rfl

theorem Solver.prepareRelative_restart {x absolute relative : Value} {start : Start}
    {tol : List (Tolerance Float)}
    (h : Solver.prepareRelative x absolute relative = .ok (start, tol)) :
    Start.ofValue x = .ok start ∧
      ∀ y start', Start.ofValue y = .ok start' → start'.point.length = start.point.length →
        Solver.prepareRelative y absolute relative = .ok (start', tol) := by
  obtain ⟨⟨start', absolutes⟩, hprepare, h⟩ := exists_of_bind_eq_ok h
  obtain ⟨relatives, hrelatives, h⟩ := exists_of_bind_eq_ok h
  cases h
  obtain ⟨hstart, -, hcongr⟩ := prepare_restart hprepare
  refine ⟨hstart, fun y start' hy hlen => ?_⟩
  rw [← Start.tolerance_congr hlen] at hrelatives
  rw [Solver.prepareRelative, hcongr y start' hy hlen]
  change (do return (start', List.zipWith Tolerance.mk absolutes (← start'.tolerance relative))) = _
  rw [hrelatives]
  rfl

/-- The criterion goes by the start in front of the tolerances. Another start with as many
components changes nothing else of it. -/
theorem Solver.Tests.restart (h : s.Tests arguments c) :
    ∃ x tail, arguments = x :: tail ∧ Start.ofValue x = .ok c.start ∧
      ∀ y start, Start.ofValue y = .ok start → start.point.length = c.start.point.length →
        s.Tests (y :: tail) { c with start } := by
  cases h with
  | newton hm h =>
    obtain ⟨hstart, -, hrestart⟩ := prepare_restart h
    exact ⟨_, _, rfl, hstart, fun y _ hy hlen => .newton hm (hrestart y _ hy hlen)⟩
  | sand hm h =>
    obtain ⟨hstart, -, hrestart⟩ := prepare_restart h
    exact ⟨_, _, rfl, hstart, fun y _ hy hlen => .sand hm (hrestart y _ hy hlen)⟩
  | steffensen hm h =>
    obtain ⟨hstart, hrestart⟩ := prepareRelative_restart h
    exact ⟨_, _, rfl, hstart, fun y _ hy hlen => .steffensen hm (hrestart y _ hy hlen)⟩
  | wegstein hm h =>
    obtain ⟨hstart, hrestart⟩ := prepareRelative_restart h
    exact ⟨_, _, rfl, hstart, fun y _ hy hlen => .wegstein hm (hrestart y _ hy hlen)⟩

/-- A run that cannot tell whether to show its heading ends there. -/
theorem Run.ofTrace_mute {Point Reading Site Slope Detail Answer : Type}
    {caller : Caller Point Reading Site Slope Detail} {note : Note Detail} {cause : Failure}
    (h : caller.shows note = .error cause) (line : Note Detail → String) (point : Point → Value)
    (site : Site → Value) (settle : Answer → Except Failure Solution)
    (next : Search Point Reading Site Slope Detail Answer) :
    (Run.ofTrace line point site settle (Search.run caller (.report note next))).evaluations = #[] ∧
      (Run.ofTrace line point site settle (Search.run caller (.report note next))).outcome =
        .error cause := by
  rw [Search.run, runFrom, h]
  simp [Run.ofTrace, Except.bind]

/-- A solver whose display level is no number fails before its first call. -/
theorem Solver.Tests.mute (h : s.Tests arguments c) {cause : Failure}
    (hd : ∀ level : Nat, Value.isAtMost (.int level) s.display = .error cause)
    (options : RunOptions) :
    (s.run arguments none options).evaluations = #[] ∧
      (s.run arguments none options).outcome = .error cause := by
  cases h with
  | newton hm h =>
    simp only [Solver.run, hm, runSystem, h]
    exact Run.ofTrace_mute (hd 1) ..
  | sand hm h =>
    simp only [Solver.run, hm, runSystem, h]
    exact Run.ofTrace_mute (hd 1) ..
  | steffensen hm h =>
    simp only [Solver.run, hm, runFixedPoint, h]
    exact Run.ofTrace_mute (hd 1) ..
  | wegstein hm h =>
    simp only [Solver.run, hm, runFixedPoint, h]
    exact Run.ofTrace_mute (hd 1) ..

/-- A solver that tests each of its calls decides by its criterion. -/
theorem Solver.Tests.decides (h : s.Tests arguments c) (hs : s.Displays) (options : RunOptions) :
    ∃ calls outcome, c.Decides s options (s.run arguments none options) calls outcome := by
  obtain ⟨limit, hlimit⟩ := Nat.exists_eq_add_of_le' s.limit.positive
  cases h with
  | newton hm h =>
    simp only [Solver.run, hm, runSystem, h, runNewton]
    refine Criterion.decides_vectors _ _ hs rfl (fun _ _ => rfl)
      (.report (Newton.tests_iterate ..)) rfl ?_ (Newton.measured_search _ _ rfl).asks
    simp only [Newton.search, hlimit]
    exact .report .evaluate
  | sand hm h =>
    simp only [Solver.run, hm, runSystem, h]
    exact Criterion.decides_flow hm (prepare_restart h).2.1 hs
  | steffensen hm h =>
    simp only [Solver.run, hm, runFixedPoint, h, runValues]
    refine Criterion.decides_vectors _ _ hs rfl (fun _ _ => rfl)
      (.report (Steffensen.tests_iterate _ _ 0 _)) rfl ?_
      (Steffensen.measured_search _ _ rfl).asks
    simp only [Steffensen.search, hlimit]
    exact .report (.report .evaluate)
  | wegstein hm h =>
    simp only [Solver.run, hm, runFixedPoint, h, runValues]
    exact Criterion.decides_vectors _ _ hs rfl (fun _ _ => rfl) (Wegstein.tests_search ..) rfl
      (.report .evaluate) (Wegstein.measured_search _ _ rfl).asks

end RootFinding
