import RootFinding.Proofs.Counting.Methods
import RootFinding.Proofs.FixedPoint.Restart

/-!
# The counts that a solver tells

A solver tells its calls and iterations in the account of an answer and in the report of a run that
did not converge. Both agree with the calls that it made, whatever its functions answer.
-/
namespace RootFinding
open Number Search

def Call.seen (call : Call) : Value :=
  match call.argument with
  | .number x => .real x
  | .array a => .ofGrid a

/-- A failure of a function at a call that a run made, for a value or for a slope. -/
inductive Run.Raised (values slopes : List Function) (cause : Failure) (run : Run) : Prop
  | value {f call} (hf : f ∈ values) (hcall : run.evaluations[call.number]? = some call.seen)
    (hvalue : call.residual = none) (h : f call = .error cause)
  | slope {g call} (hg : g ∈ slopes) (hcall : run.slopes[call.number]? = some call.seen)
    (h : g call = .error cause)

namespace Solver

/-- The function that a solver calls for values: its own one, or the one that a bracketing search is
given. -/
def valueFunctions (s : Solver) (function : Option Function) : List Function :=
  match s.method with
  | .brent _ => function.toList
  | .newton f _ | .sand f _ | .broyden f | .steffensen f | .wegstein f => [f]

def slopeFunctions (s : Solver) : List Function :=
  match s.method with
  | .newton _ g | .sand _ g => [g]
  | _ => []

/-- An outcome that tells the numbers of calls and slopes before it: in its account, if one is
wished for, or in the report that the search did not converge. The number of iterations goes with
them. -/
def Told (s : Solver) (options : RunOptions) (calls slopes : Nat) :
    Except Failure Solution → Prop
  | .ok solution => ∃ converged iterations,
    s.method.family.Counts s.limit.count iterations calls slopes converged ∧
      solution.account =
        if options.full then some ⟨converged, iterations, calls, s.method.name⟩ else none
  | .error (.notConverged r) => ∃ iterations : Nat,
    s.method.family.Counts s.limit.count iterations calls slopes false ∧
      Report.lookup? "iterations" r.named = some (.int iterations) ∧
      Report.lookup? "fevals" r.named = some (.int calls)
  | .error _ => True

variable {s : Solver} {options : RunOptions} {calls slopes : Nat}

theorem told_of_unreported {outcome : Except Failure Solution} {cause : Failure}
    (ho : outcome = .error cause) (h : ∀ r, cause ≠ .notConverged r) :
    s.Told options calls slopes outcome := by
  subst ho
  unfold Told
  split
  · rename_i h
    cases h
  · rename_i r h'
    cases h'
    exact absurd rfl (h r)
  · trivial

theorem told_settleSystem {single : Bool} {e : Ending (Grid Float)}
    (h : Iteration.Tells s.method.family s.limit.count calls slopes e) :
    s.Told options calls slopes (s.settleSystem options single e) := by
  obtain ⟨rfl, hcounts⟩ := h
  unfold settleSystem
  split
  · rename_i hstrict
    rw [Bool.and_eq_true, Bool.not_eq_true'] at hstrict
    rw [hstrict.1] at hcounts
    exact ⟨e.iterations, hcounts, rfl, rfl⟩
  · cases hx : restore e.point single with
    | ok x => exact ⟨e.converged, e.iterations, hcounts, rfl⟩
    | error cause =>
      exact told_of_unreported rfl (hx ▸ unreported_restore e.point single).cause_ne

theorem told_settleBracket {t : RootTolerance} (hm : s.method = .brent t)
    {e : Brent.Ending Double Quantity} (h : Brent.Tells s.limit.count calls slopes e) :
    s.Told options calls slopes (s.settleBracket options e) := by
  cases e with
  | root x iterations =>
    obtain ⟨hl, rfl, hs⟩ := h
    refine ⟨true, iterations, ?_, rfl⟩
    rw [hm]
    exact ⟨hl, rfl, hs⟩
  | exhausted a b fa fb iterations =>
    obtain ⟨hl, rfl, hs⟩ := h
    refine ⟨iterations, ?_, rfl, rfl⟩
    rw [hm]
    exact ⟨hl, rfl, hs⟩

end Solver

/-- A caller that fails with a report only where one of these functions does, at the argument and
the number that are seen of the call. -/
structure Search.Behind {Point Reading Site Slope Detail : Type} (values slopes : List Function)
    (point : Point → Value) (place : Site → Value)
    (caller : Caller Point Reading Site Slope Detail) : Prop where
  value : ∀ i x r, caller.value i x = .error (.notConverged r) →
    ∃ f ∈ values, ∃ call : Call, f call = .error (.notConverged r) ∧
      call.number = i ∧ call.seen = point x ∧ call.residual = none
  slope : ∀ i x r, caller.slope i x = .error (.notConverged r) →
    ∃ g ∈ slopes, ∃ call : Call, g call = .error (.notConverged r) ∧
      call.number = i ∧ call.seen = place x
  shows : ∀ note, Unreported (caller.shows note)

theorem Search.Behind.raised {Point Reading Site Slope Detail Answer : Type}
    {values slopes : List Function} {point : Point → Value} {place : Site → Value}
    {caller : Caller Point Reading Site Slope Detail}
    (hb : Behind values slopes point place caller)
    {line : Note Detail → String} {settle : Answer → Except Failure Solution}
    {trace : Trace Point Site Detail Answer} {r : Report}
    (h : Raised caller trace.evaluations trace.slopes (.notConverged r)) :
    (Run.ofTrace line point place settle trace).Raised values slopes (.notConverged r) := by
  cases h with
  | value hx h =>
    obtain ⟨f, hf, call, hcall, rfl, hseen, hnone⟩ := hb.value _ _ r h
    refine .value hf ?_ hnone hcall
    simp [Run.ofTrace, hseen, hx]
  | slope hx h =>
    obtain ⟨g, hg, call, hcall, rfl, hseen⟩ := hb.slope _ _ r h
    refine .slope hg ?_ hcall
    simp [Run.ofTrace, hseen, hx]
  | note h => exact absurd h ((hb.shows _).ne r)

/-- What a run tells of its calls: it makes no more than the most of its family, and tells their
number, unless one of its functions fails with a report of its own. -/
structure Run.Tells (s : Solver) (function : Option Function) (options : RunOptions) (run : Run) :
    Prop where
  size_le : run.evaluations.size ≤ s.method.family.mostCalls s.limit.count
  told : (∃ r, run.outcome = .error (.notConverged r) ∧
      run.Raised (s.valueFunctions function) s.slopeFunctions (.notConverged r)) ∨
    s.Told options run.evaluations.size run.slopes.size run.outcome

namespace Run.Tells
variable {s : Solver} {function : Option Function} {options : RunOptions}

theorem failed {cause : Failure} (h : ∀ r, cause ≠ .notConverged r) :
    (Run.failed cause).Tells s function options :=
  ⟨Nat.zero_le _, .inr (Solver.told_of_unreported rfl h)⟩

theorem of_counted {Point Reading Site Slope Detail Answer : Type}
    {search : Search Point Reading Site Slope Detail Answer}
    {caller : Caller Point Reading Site Slope Detail} {agrees : Nat → Nat → Answer → Prop}
    {line : Note Detail → String} {point : Point → Value} {place : Site → Value}
    {settle : Answer → Except Failure Solution} {run : Run}
    (hrun : run = .ofTrace line point place settle (search.run caller))
    (hc : Counted (s.method.family.mostCalls s.limit.count) agrees 0 0 search)
    (hb : Behind (s.valueFunctions function) s.slopeFunctions point place caller)
    (hsettle : ∀ {calls slopes answer}, agrees calls slopes answer →
      s.Told options calls slopes (settle answer)) : run.Tells s function options := by
  have ht : Tallied _ _ caller (search.run caller) := hc.run
  generalize search.run caller = trace at hrun ht
  subst hrun
  refine ⟨by simpa [Run.ofTrace] using ht.size_le, ?_⟩
  cases ho : trace.outcome with
  | ok answer =>
    right
    simpa [Run.ofTrace, ho, Except.bind] using hsettle (ht.agrees answer ho)
  | error cause =>
    have houtcome : (Run.ofTrace line point place settle trace).outcome = .error cause := by
      rw [Run.ofTrace, ho]
      rfl
    by_cases h : ∃ r, cause = .notConverged r
    · obtain ⟨r, rfl⟩ := h
      exact .inl ⟨r, houtcome, hb.raised (ht.raised r ho)⟩
    · exact .inr (Solver.told_of_unreported houtcome fun r hr => h ⟨r, hr⟩)

end Run.Tells

namespace Solver
variable (s : Solver) (f g : Function)

theorem behind_valueCaller (slopes : List Function) :
    Behind [f] slopes (.ofGrid <| .vector ·) Empty.elim (s.valueCaller f) where
  value i x r h := by
    have hcall := Unreported.report_of_bind Answer.unreported_toGrid h
    exact ⟨f, by simp, _, hcall, rfl, rfl, rfl⟩
  slope _ x := x.elim
  shows := Progress.unreported_shows s.display

theorem behind_newtonCaller :
    Behind [f] [g] (.ofGrid <| .vector ·) (.ofGrid <| .vector ·.1) (s.newtonCaller f g) where
  value i x r h := by
    have hcall := Unreported.report_of_bind Answer.unreported_toGrid h
    exact ⟨f, by simp, _, hcall, rfl, rfl, rfl⟩
  slope i x r h := by
    have hcall := Unreported.report_of_bind Answer.unreported_toGrid h
    exact ⟨g, by simp, _, hcall, rfl, rfl⟩
  shows := Progress.unreported_shows s.display

theorem behind_flowCaller : Behind [f] [g] .ofGrid .ofGrid (s.flowCaller f g) where
  value i x r h := by
    have hcall := Unreported.report_of_bind Answer.unreported_toGrid h
    exact ⟨f, by simp, _, hcall, rfl, rfl, rfl⟩
  slope i x r h := by
    have hcall := Unreported.report_of_bind (fun _ => .ok _) h
    exact ⟨g, by simp, _, hcall, rfl, rfl⟩
  shows := Progress.unreported_shows s.display

theorem behind_bracketCaller (slopes : List Function) :
    Behind [f] slopes .real Empty.elim (Brent.bracketCaller s f) where
  value i x r h := by
    have hcall := Unreported.report_of_bind (fun _ => .ok _) h
    exact ⟨f, by simp, _, hcall, rfl, rfl, rfl⟩
  slope _ x := x.elim
  shows := Progress.unreported_shows s.display

variable {s f g} {arguments : List Value} {function : Option Function} {options : RunOptions}

/-- A run on a start and a tolerance for each component, once these are read. -/
theorem tells_system {run : Start → List Float → Run}
    (h : ∀ start tol, (run start tol).Tells s function options) :
    (runSystem arguments run).Tells s function options := by
  unfold runSystem
  split
  · rename_i x tol
    cases hp : prepare x tol with
    | ok prepared => exact h prepared.1 prepared.2
    | error cause => exact .failed (hp ▸ unreported_prepare x tol).cause_ne
  · exact .failed (by simp)

theorem tells_fixedPoint {search : List (Tolerance Float) → List Float →
      Iteration.Searching Float Empty Empty (List Float)}
      (hf : s.valueFunctions function = [f])
    (hc : ∀ tol x, Counted (s.method.family.mostCalls s.limit.count)
      (Iteration.Tells s.method.family s.limit.count) 0 0 (search tol x)) :
    (s.runFixedPoint options f arguments search).Tells s function options := by
  unfold runFixedPoint
  split
  · rename_i x absolute relative
    cases hp : prepareRelative x absolute relative with
    | ok prepared =>
      refine .of_counted rfl (hc prepared.2 prepared.1.point) (hf ▸ s.behind_valueCaller f _) ?_
      exact fun h => told_settleSystem h
    | error cause => exact .failed (hp ▸ unreported_prepareRelative ..).cause_ne
  · exact .failed (by simp)

/-- A solver for brackets refuses what it is given without a report, or runs between two doubles. -/
theorem run_bracket_of_bounds {t : RootTolerance} (hm : s.method = .brent t)
    (arguments : List Value) (function : Option Function) (options : RunOptions) :
    (∃ cause, (∀ r, cause ≠ .notConverged r) ∧
      s.run arguments function options = .failed cause) ∨
    ∃ f v w lower upper, function = some f ∧ v.toDouble = .ok lower ∧ w.toDouble = .ok upper ∧
      s.run arguments function options = s.runBracket options t f v w := by
  rcases run_bracket_cases arguments function options.strict with ⟨cause, hcause, hfail⟩ |
    ⟨v, w, f, -, hf, hrun⟩
  · exact .inl ⟨cause, hcause, hfail s t options.full hm⟩
  · have hrun : s.run arguments function options = s.runBracket options t f v w :=
      hrun s t options.full hm
    rcases runBracket_cases v w with ⟨cause, hcause, hfail⟩ | ⟨lower, upper, hv, hw⟩
    · refine .inl ⟨cause, ?_, hrun.trans (hfail ..)⟩
      rcases hcause with h | h
      · exact (h ▸ Value.unreported_toDouble v).cause_ne
      · exact (h ▸ Value.unreported_toDouble w).cause_ne
    · exact .inr ⟨f, v, w, lower, upper, hf, hv, hw, hrun⟩

theorem tells_bracket {t : RootTolerance} (hm : s.method = .brent t) :
    (s.run arguments function options).Tells s function options := by
  rcases run_bracket_of_bounds hm arguments function options with ⟨cause, hcause, hfail⟩ |
    ⟨f, v, w, lower, upper, rfl, hv, hw, hrun⟩
  · rw [hfail]
    exact .failed hcause
  · have hf : s.valueFunctions (some f) = [f] := by
      rw [valueFunctions, hm]
      rfl
    rw [hrun]
    refine .of_counted (Brent.runBracket_of_bounds hv hw) ?_ (hf ▸ s.behind_bracketCaller f _)
      fun h => told_settleBracket hm h
    rw [hm]
    exact Brent.counted_search ..

theorem tells_newton (hm : s.method = .newton f g) (start : Start) (tol : List Float) :
    (s.runNewton options f g start tol).Tells s function options := by
  have hrun : s.runNewton options f g start tol = .ofTrace _ _ _ _
      ((Newton.search s.limit.count tol start.point).run (s.newtonCaller f g)) := rfl
  have hf : s.valueFunctions function = [f] := by rw [valueFunctions, hm]
  have hg : s.slopeFunctions = [g] := by rw [slopeFunctions, hm]
  refine .of_counted hrun ?_ (hf ▸ hg ▸ s.behind_newtonCaller f g) fun h => told_settleSystem h
  rw [hm]
  exact Newton.counted_search ..

theorem tells_flow (hm : s.method = .sand f g) (start : Start) (tol : List Float) :
    (s.runSand options f g start tol).Tells s function options := by
  have hrun : s.runSand options f g start tol = .ofTrace _ _ _ _
      ((Sand.search s.limit.count tol start.point).run (s.flowCaller f g)) := rfl
  have hf : s.valueFunctions function = [f] := by rw [valueFunctions, hm]
  have hg : s.slopeFunctions = [g] := by rw [slopeFunctions, hm]
  refine .of_counted hrun ?_ (hf ▸ hg ▸ s.behind_flowCaller f g) fun h => told_settleSystem h
  rw [hm]
  exact Sand.counted_search ..

/-- What a solver tells of its calls is what it did, whatever its arguments are and its functions
answer. -/
theorem run_tells (s : Solver) (arguments : List Value) (function : Option Function)
    (options : RunOptions) : (s.run arguments function options).Tells s function options := by
  cases hm : s.method with
  | brent t => exact tells_bracket hm
  | newton f g =>
    rw [run, hm]
    exact tells_system (tells_newton hm)
  | sand f g =>
    rw [run, hm]
    exact tells_system (tells_flow hm)
  | broyden f =>
    rw [run, hm]
    refine tells_fixedPoint (by rw [valueFunctions, hm]) fun tol x => ?_
    rw [hm]
    exact Broyden.counted_search s.limit.positive tol x
  | steffensen f =>
    rw [run, hm]
    refine tells_fixedPoint (by rw [valueFunctions, hm]) fun tol x => ?_
    rw [hm]
    exact Steffensen.counted_search ..
  | wegstein f =>
    rw [run, hm]
    refine tells_fixedPoint (by rw [valueFunctions, hm]) fun tol x => ?_
    rw [hm]
    exact Wegstein.counted_search ..

end Solver
end RootFinding
