import RootFinding.Proofs.Iteration.Arguments
import RootFinding.Proofs.Iteration.Converged
import RootFinding.Proofs.Iteration.Questions
import RootFinding.Proofs.FixedPoint.Restart

/-!
# Iterates of the length of the start

Newton's, Broyden's, Steffensen's and Wegstein's methods ask for values and slopes at vectors of the
length of their start and end at such a vector, whatever the functions answer: a value of another
shape is the last one asked for, and a Jacobian is solved for as many components as the residual
has. So the last point always takes the form of the start.
-/
namespace RootFinding
open Number Search Iteration

/-- A search over vectors with the side of its caller, and the point at which it asks for a
slope. -/
structure VectorSearch where
  {Site Slope Detail : Type}
  search : Iteration.Searching Float Site Slope Detail
  caller : Caller (List Float) (Grid Float) Site Slope Detail
  place : Site → List Float

namespace VectorSearch

def questions (v : VectorSearch) : List (Question (List Float) v.Site) :=
  asked v.caller 0 0 v.search

def ending (v : VectorSearch) : Except Failure (Ending (List Float)) :=
  (v.search.run v.caller).outcome

theorem toList_evaluations (v : VectorSearch) :
    (v.search.run v.caller).evaluations.toList = v.questions.filterMap Question.value? := by
  rw [Search.run, (toList_asked v.search).1]
  rfl

theorem toList_slopes (v : VectorSearch) :
    (v.search.run v.caller).slopes.toList = v.questions.filterMap Question.slope? := by
  rw [Search.run, (toList_asked v.search).2]
  rfl

theorem last_of_error {v : VectorSearch} {n : Nat} {sites : v.Site → Prop}
    (h : Measured n sites v.search) {before after : List (Question (List Float) v.Site)}
    {x : List Float} {cause : Failure} (hasked : v.questions = before ++ .value x :: after)
    (hreply : reply v.caller (before.filterMap Question.value?).length x = .error cause) :
    after = [] ∧ v.ending = .error cause := by
  rw [← Nat.zero_add (before.filterMap Question.value?).length] at hreply
  exact h.last_of_error #[] #[] #[] hasked hreply

end VectorSearch

/-- How a solver searches over vectors for arguments that it accepts: its start, the function that
it calls for values, and the search. -/
inductive Solver.Searches (s : Solver) : List Value → Start → Function → VectorSearch → Prop
  | newton {f g x tol start bounds} (hm : s.method = .newton f g)
    (h : Solver.prepare x tol = .ok (start, bounds)) :
    Searches s [x, tol] start f
      ⟨Newton.search s.limit.count bounds start.point, s.newtonCaller f g, Prod.fst⟩
  | broyden {f x absolute relative start tol} (hm : s.method = .broyden f)
    (h : Solver.prepareRelative x absolute relative = .ok (start, tol)) :
    Searches s [x, absolute, relative] start f
      ⟨Broyden.search s.limit.count tol start.point, s.valueCaller f, Empty.elim⟩
  | steffensen {f x absolute relative start tol} (hm : s.method = .steffensen f)
    (h : Solver.prepareRelative x absolute relative = .ok (start, tol)) :
    Searches s [x, absolute, relative] start f
      ⟨Steffensen.search s.limit.count tol start.point, s.valueCaller f, Empty.elim⟩
  | wegstein {f x absolute relative start tol} (hm : s.method = .wegstein f)
    (h : Solver.prepareRelative x absolute relative = .ok (start, tol)) :
    Searches s [x, absolute, relative] start f
      ⟨Wegstein.search s.limit.count tol start.point, s.valueCaller f, Empty.elim⟩

/-- What a run keeps of the shape of its start. -/
structure Solver.KeepsLength (s : Solver) (options : RunOptions) (start : Start) (f : Function)
    (v : VectorSearch) (run : Run) : Prop where
  /-- The calls that are seen are the questions of the search. -/
  evaluations : run.evaluations.toList =
    (v.questions.filterMap Question.value?).map fun x => .ofGrid (.vector x)
  slopes : run.slopes.toList =
    (v.questions.filterMap Question.slope?).map fun site => .ofGrid (.vector (v.place site))
  /-- Each is about a vector of the length of the start. -/
  lengths : ∀ q ∈ v.questions, q.At (fun x => x.length = start.point.length)
    fun site => (v.place site).length = start.point.length
  /-- After an answer of another shape nothing is asked any more. -/
  refuses : ∀ before x after answer y, v.questions = before ++ .value x :: after →
    f { argument := .array (.vector x), number := (before.filterMap Question.value?).length } =
      .ok answer → answer.toGrid = .ok y → y.shape ≠ [start.point.length] →
    after = [] ∧ run.outcome = .error (.resultShape [start.point.length] y.shape)
  /-- The outcome is that of the search, whose last point takes the form of the start. -/
  settled : run.outcome = (v.ending.map gridEnding).bind (s.settleSystem options start.single)
  restores : ∀ e, v.ending = .ok e → ∃ answer, restore (.vector e.point) start.single = .ok answer
  /-- An answer is a single number exactly where the start was one. -/
  answers : ∀ solution, run.outcome = .ok solution →
    if start.single then ∃ x : Float, solution.answer = .ofFloat x
    else ∃ x : List Float, x.length = start.point.length ∧ solution.answer = .ofGrid (.vector x)

theorem Start.ofValue_cases {v : Value} {s : Start} (h : ofValue v = .ok s) :
    ∃ a, v.toGrid = .ok a ∧ (a.shape = [] ∧ s.single = true ∧ s.point.length = 1 ∨
      a.shape = [s.point.length] ∧ s.single = false) := by
  have hlength := length_of_single h
  obtain ⟨a, ha, h⟩ := exists_of_bind_eq_ok h
  refine ⟨a, ha, ?_⟩
  dsimp only at h
  split at h
  · rename_i hrank
    cases h
    cases hshape : a.shape with
    | nil =>
      have hsingle : decide (a.rank = 0) = true := by simp [Grid.rank, hshape]
      exact .inl ⟨rfl, hsingle, hlength hsingle⟩
    | cons n shape =>
      have hnil : shape = [] := by
        simpa [Grid.rank, Grid.withRank, hshape] using hrank
      subst hnil
      right
      simp [Grid.rank, hshape, Grid.withRank, Grid.length_of_shape hshape]
  · cases h

theorem restore_cases {x : List Float} {single : Bool} {answer : Value}
    (h : restore (.vector x) single = .ok answer) :
    if single then ∃ a : Float, answer = .ofFloat a else answer = .ofGrid (.vector x) := by
  unfold restore at h
  cases single with
  | true =>
    simp only [if_true, Grid.entries_vector] at h
    split at h
    · cases h
      exact ⟨_, rfl⟩
    · cases h
  | false =>
    cases h
    rfl

theorem Solver.restore_of_settleSystem {s : Solver} {options : RunOptions} {single : Bool}
    {e : Ending (Grid Float)} {solution : Solution}
    (h : s.settleSystem options single e = .ok solution) :
    restore e.point single = .ok solution.answer := by
  unfold settleSystem at h
  split at h
  · cases h
  · obtain ⟨x, hx, h⟩ := exists_of_bind_eq_ok h
    cases h
    exact hx

namespace Solver.KeepsLength
variable {s : Solver} {options : RunOptions} {start : Start} {f : Function} {v : VectorSearch}
  {run : Run} {sites : v.Site → Prop}

theorem of_measured (line : Note v.Detail → String)
    (hrun : run = .ofTrace line (.ofGrid <| .vector ·) (.ofGrid <| .vector <| v.place ·)
      (fun e => s.settleSystem options start.single (gridEnding e)) (v.search.run v.caller))
    (hmeasured : Measured start.point.length sites v.search)
    (hsites : ∀ site, sites site → (v.place site).length = start.point.length)
    (hvalue : ∀ number x, v.caller.value number x =
      do (← ask f none number (.vector x)).toGrid)
    (hsingle : start.single = true → start.point.length = 1) :
    s.KeepsLength options start f v run := by
  have hsettled : run.outcome =
      (v.ending.map gridEnding).bind (s.settleSystem options start.single) := by
    rw [hrun]
    exact Run.outcome_ofTrace ..
  have hlengths : ∀ q ∈ v.questions, q.At (fun x => x.length = start.point.length)
      fun site => (v.place site).length = start.point.length := by
    intro q hq
    have hat := hmeasured.at hq
    cases q with
    | value x => exact hat
    | slope site => exact hsites site hat
  have hrestores : ∀ e, v.ending = .ok e →
      e.point.length = start.point.length ∧
        ∃ answer, restore (.vector e.point) start.single = .ok answer := by
    intro e he
    have hlength : e.point.length = start.point.length :=
      hmeasured.ends.of_runFrom (fun _ _ _ _ _ => trivial) he
    exact ⟨hlength, exists_restore fun h => hlength.trans (hsingle h)⟩
  refine ⟨?_, ?_, hlengths, ?_, hsettled, fun e he => (hrestores e he).2, ?_⟩
  · subst hrun
    simp [Run.ofTrace, v.toList_evaluations]
  · subst hrun
    simp [Run.ofTrace, v.toList_slopes]
  · intro before x after answer y hasked hf hy hshape
    have hlength : x.length = start.point.length := hlengths (.value x) (by simp [hasked])
    have hreply : reply v.caller (before.filterMap Question.value?).length x =
        .error (.resultShape [start.point.length] y.shape) := by
      have hgrid := toGrid_ask_eq_ok.2 ⟨answer, hf, hy⟩
      rw [reply, hvalue, hgrid, ← hlength]
      exact if_neg (hlength ▸ hshape)
    obtain ⟨hlast, hending⟩ := VectorSearch.last_of_error hmeasured hasked hreply
    refine ⟨hlast, ?_⟩
    rw [hsettled, hending]
    rfl
  · intro solution hsolution
    rw [hsettled] at hsolution
    obtain ⟨e, he, hsettle⟩ := exists_of_bind_eq_ok hsolution
    obtain ⟨e', he', rfl⟩ := exists_of_map_eq_ok he
    have hform := restore_cases (restore_of_settleSystem hsettle)
    split
    · rename_i h
      rwa [if_pos h] at hform
    · rename_i h
      rw [if_neg h] at hform
      exact ⟨e'.point, (hrestores e' he').1, hform⟩

theorem of_fixedPoint {x absolute relative : Value} {tol : List (Tolerance Float)}
    {search : List (Tolerance Float) → List Float →
      Iteration.Searching Float Empty Empty (List Float)}
    (hrun : run = s.runFixedPoint options f [x, absolute, relative] search)
    (hprepare : prepareRelative x absolute relative = .ok (start, tol))
    (hmeasured : Measured start.point.length Empty.elim (search tol start.point)) :
    s.KeepsLength options start f ⟨search tol start.point, s.valueCaller f, Empty.elim⟩ run := by
  refine of_measured (Progress.line s.method.name Progress.pointDetail) ?_ hmeasured nofun
    (fun _ _ => rfl) (Start.length_of_single (prepareRelative_restart hprepare).1)
  have hplace : (fun e : Empty => Value.ofGrid (.vector (e.elim : List Float))) = Empty.elim :=
    funext fun e => e.elim
  simp only [hrun, runFixedPoint, hprepare, hplace]
  rfl

theorem of_searches {arguments : List Value} (h : s.Searches arguments start f v)
    (function : Option Function) (options : RunOptions) :
    s.KeepsLength options start f v (s.run arguments function options) := by
  cases h with
  | @newton _ g x tol _ bounds hm hprepare =>
    have hrun : s.run [x, tol] function options = s.runNewton options f g start bounds := by
      simp only [Solver.run, hm, runSystem, hprepare]
    refine of_measured (Progress.line s.method.name fun d =>
        Progress.residualDetail (.vector d.1, .vector d.2)) ?_
      (Newton.measured_search _ _ rfl) (fun _ h => h) (fun _ _ => rfl)
      (Start.length_of_single (prepare_restart hprepare).1)
    rw [hrun]
    rfl
  | broyden hm hprepare =>
    exact of_fixedPoint (by rw [Solver.run, hm]) hprepare (Broyden.measured_search _ _ rfl)
  | steffensen hm hprepare =>
    exact of_fixedPoint (by rw [Solver.run, hm]) hprepare (Steffensen.measured_search _ _ rfl)
  | wegstein hm hprepare =>
    exact of_fixedPoint (by rw [Solver.run, hm]) hprepare (Wegstein.measured_search _ _ rfl)

end Solver.KeepsLength

def Method.Measures : Method → Prop
  | .newton _ _ | .broyden _ | .steffensen _ | .wegstein _ => True
  | _ => False

namespace Solver
variable {s : Solver} {arguments : List Value}

/-- A solver refuses its arguments, or begins a search over vectors. -/
inductive Begins (s : Solver) (arguments : List Value) : Prop
  | refused (cause : Failure)
    (h : ∀ function options, s.run arguments function options = .failed cause)
  | started {x : Value} {tail : List Value} {start : Start} {f : Function} {v : VectorSearch}
    (harguments : arguments = x :: tail) (hstart : Start.ofValue x = .ok start)
    (h : s.Searches arguments start f v)

theorem begins_of_fixedPoint {f : Function}
    {search : List (Tolerance Float) → List Float →
      Iteration.Searching Float Empty Empty (List Float)}
    (hrun : ∀ function options,
      s.run arguments function options = s.runFixedPoint options f arguments search)
    (h : ∀ x absolute relative start tol,
      prepareRelative x absolute relative = .ok (start, tol) →
        s.Searches [x, absolute, relative] start f
          ⟨search tol start.point, s.valueCaller f, Empty.elim⟩) : s.Begins arguments := by
  rcases runFixedPoint_cases arguments with ⟨cause, hfail⟩ |
    ⟨x, absolute, relative, start, tol, rfl, hprepare, -⟩
  · exact .refused cause fun function options => (hrun function options).trans (hfail ..)
  · exact .started rfl (prepareRelative_restart hprepare).1 (h _ _ _ _ _ hprepare)

theorem begins (hm : s.method.Measures) (arguments : List Value) : s.Begins arguments := by
  cases h : s.method with
  | newton f g =>
    rcases runSystem_cases arguments with ⟨cause, hfail⟩ | ⟨x, tol, start, bounds, rfl, hprepare, -⟩
    · refine .refused cause fun function options => ?_
      rw [run, h]
      exact hfail _
    · exact .started rfl (prepare_restart hprepare).1 (.newton h hprepare)
  | broyden f =>
    exact begins_of_fixedPoint (fun function options => by rw [run, h])
      fun _ _ _ _ _ hprepare => .broyden h hprepare
  | steffensen f =>
    exact begins_of_fixedPoint (fun function options => by rw [run, h])
      fun _ _ _ _ _ hprepare => .steffensen h hprepare
  | wegstein f =>
    exact begins_of_fixedPoint (fun function options => by rw [run, h])
      fun _ _ _ _ _ hprepare => .wegstein h hprepare
  | brent tol | sand f g =>
    rw [h] at hm
    exact hm.elim

/-- The iterates keep the shape of the start, whatever the functions answer: a single number is a
vector of length one, a list is one of its own length. -/
theorem run_keeps_length (hm : s.method.Measures) (arguments : List Value)
    (function : Option Function) (options : RunOptions) :
    (∃ cause, ∀ function options, s.run arguments function options = .failed cause) ∨
      ∃ x tail a start f v, arguments = x :: tail ∧ x.toGrid = .ok a ∧
        (a.shape = [] ∧ start.single = true ∧ start.point.length = 1 ∨
          a.shape = [start.point.length] ∧ start.single = false) ∧
        s.Searches arguments start f v ∧
        s.KeepsLength options start f v (s.run arguments function options) := by
  cases begins hm arguments with
  | refused cause h => exact .inl ⟨cause, h⟩
  | started harguments hstart hsearches =>
    obtain ⟨a, ha, hform⟩ := Start.ofValue_cases hstart
    exact .inr ⟨_, _, a, _, _, _, harguments, ha, hform, hsearches,
      .of_searches hsearches function options⟩

end Solver

def shrinking : Function := fun call =>
  match call.argument with
  | .array a => .ok (.value (.array (if call.number = 0 then a else .vector [2])))
  | .number _ => .error .wrongKind

def identitySlopes : Function := fun _ => .ok (.value (.array ⟨[2, 2], [1, 0, 0, 1], rfl⟩))

def shrinkingSolver : Solver := ⟨.newton shrinking identitySlopes, ⟨2, by decide⟩, .int 0⟩

/-- From two numbers the second call is the last one, and one slope is asked for before it. -/
theorem run_keeps_length_shrinking :
    ∃ (run : Run) (start : Start) (f : Function) (v : VectorSearch),
      shrinkingSolver.run [.list [.ofFloat 1, .ofFloat 3], .ofFloat 0.5] none {} = run ∧
      start.point.length = 2 ∧ shrinkingSolver.KeepsLength {} start f v run ∧
      run.evaluations.size = 2 ∧ run.slopes.size = 1 ∧
      run.outcome = .error (.resultShape [2] [1]) := by
  have hsize : (shrinkingSolver.run [.list [.ofFloat 1, .ofFloat 3], .ofFloat 0.5] none
    {}).evaluations.size = 2 := by decide +kernel
  rcases Solver.run_keeps_length (by trivial : shrinkingSolver.method.Measures)
    [.list [.ofFloat 1, .ofFloat 3], .ofFloat 0.5] none {} with ⟨cause, hrefused⟩ |
    ⟨x, tail, a, start, f, v, harguments, ha, hform, -, hkeeps⟩
  · rw [hrefused] at hsize
    cases hsize
  · cases harguments
    have hgrid : (Value.list [.ofFloat 1, .ofFloat 3]).toGrid = .ok (.vector [1, 3]) := rfl
    cases hgrid.symm.trans ha
    have hlength : start.point.length = 2 := by
      rcases hform with ⟨hshape, -, -⟩ | ⟨hshape, -⟩
      · cases hshape
      · exact (List.cons.inj hshape).1.symm
    exact ⟨_, start, f, v, rfl, hlength, hkeeps, hsize, by decide +kernel, by rfl⟩

end RootFinding
