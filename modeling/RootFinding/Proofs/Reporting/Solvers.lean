import RootFinding.Proofs.Bracketing.Doubles
import RootFinding.Proofs.FixedPoint.Restart
import RootFinding.Proofs.Iteration.Arguments
import RootFinding.Proofs.Iteration.Endings
import RootFinding.Proofs.Reporting.Courses

/-!
# The course that a solver takes

What is shown of a run has no part in what it does: each solver takes one course on its arguments,
and its runs at the display levels are views of that.
-/
namespace RootFinding
open Number Search Iteration

def Solver.showing (s : Solver) (level : Int) : Solver := { s with display := .int level }

section Systems
variable {s : Solver} {arguments : List Value} {function : Option Function}

/-- How an iteration on a system is run, whatever is shown of it and asked about it: it refuses its
arguments, or it takes one course from its start and ends at a point of the shape of that. -/
inductive Solver.Iterates (s : Solver) (arguments : List Value) (function : Option Function) : Prop
  | refused (cause : Failure)
    (hrun : ∀ level options, (s.showing level).run arguments function options = .failed cause)
  | started {x : Value} {tail : List Value} {start : Start} {course : Course (Ending (Grid Float))}
    (harguments : arguments = x :: tail) (hstart : Start.ofValue x = .ok start)
    (hrun : ∀ level options, (s.showing level).run arguments function options =
      course.seen s.method.name level (s.settleSystem options start.single))
    (hshape : ∀ run : Run, run.slopes = course.slopes → s.KeepsShape start.point.length run →
      ∀ e, course.outcome = .ok e → e.point.shape = [start.point.length])

namespace Solver.Iterates

theorem of_vectors {Site Slope Detail : Type}
    (search : Iteration.Searching Float Site Slope Detail)
    (caller : Caller (List Float) (Grid Float) Site Slope Detail) (detail : Detail → String)
    (place : Site → Value) {x : Value} {tail : List Value} {start : Start}
    (harguments : arguments = x :: tail) (hstart : Start.ofValue x = .ok start)
    (hrun : ∀ level options, (s.showing level).run arguments function options =
      .ofTrace (Progress.line s.method.name detail) (.ofGrid <| .vector ·) place
        (fun e => s.settleSystem options start.single (gridEnding e))
        (search.run { caller with shows := Progress.shows (.int level) }))
    (hends : Ends (AtLength start.point.length) (fun _ _ => True) search) :
    s.Iterates arguments function := by
  have hseen : ∀ level options, (s.showing level).run arguments function options =
      ((Course.ofSearch detail (.ofGrid <| .vector ·) place caller search).map gridEnding).seen
        s.method.name level (s.settleSystem options start.single) := by
    intro level options
    rw [hrun, Course.seen_map, Course.seen_ofSearch]
  refine .started harguments hstart hseen ?_
  intro run _ _ e he
  obtain ⟨e', he', rfl⟩ := exists_of_map_eq_ok he
  have hlength : e'.point.length = start.point.length :=
    hends.of_runFrom (fun _ _ _ _ _ => trivial) he'
  exact congrArg (fun n => [n]) hlength

theorem of_fixedPoint (f : Function) (search : List (Tolerance Float) → List Float →
      Iteration.Searching Float Empty Empty (List Float))
    (hrun : ∀ level options, (s.showing level).run arguments function options =
      (s.showing level).runFixedPoint options f arguments search)
    (hends : ∀ tol x, Ends (AtLength x.length) (fun _ _ => True) (search tol x)) :
    s.Iterates arguments function := by
  rcases runFixedPoint_cases arguments with ⟨cause, hfail⟩ |
    ⟨x, absolute, relative, start, tol, harguments, hprepare, hread⟩
  · exact .refused cause fun level options => (hrun level options).trans (hfail ..)
  · refine .of_vectors (search tol start.point) (s.valueCaller f) Progress.pointDetail Empty.elim
      harguments (prepareRelative_restart hprepare).1 ?_ (hends tol start.point)
    exact fun level options => (hrun level options).trans (hread ..)

/-- A method for systems that is run once its start and tolerances are read. -/
theorem of_system (run : Int → RunOptions → Start → List Float → Run)
    (hrun : ∀ level options, (s.showing level).run arguments function options =
      runSystem arguments (run level options))
    (h : ∀ x tail start tol, arguments = x :: tail → Start.ofValue x = .ok start →
      (∀ level options, (s.showing level).run arguments function options =
        run level options start tol) → s.Iterates arguments function) :
    s.Iterates arguments function := by
  rcases runSystem_cases arguments with ⟨cause, hfail⟩ |
    ⟨x, tol, start, bounds, harguments, hprepare, hread⟩
  · exact .refused cause fun level options => (hrun level options).trans (hfail _)
  · exact h x [tol] start bounds harguments (prepare_restart hprepare).1
      fun level options => (hrun level options).trans (hread _)

/-- A search along the flow ends at the shape of its start where the Jacobians keep it. -/
theorem of_flow {f g : Function} {x : Value} {tail : List Value} {start : Start} {tol : List Float}
    (hm : s.method = .sand f g) (harguments : arguments = x :: tail)
    (hstart : Start.ofValue x = .ok start)
    (hrun : ∀ level options, (s.showing level).run arguments function options =
      (s.showing level).runSand options f g start tol) : s.Iterates arguments function := by
  have hseen : ∀ level options, (s.showing level).run arguments function options =
      (Course.ofSearch Progress.residualDetail .ofGrid .ofGrid (s.flowCaller f g)
        (Sand.search s.limit.count tol start.point)).seen s.method.name level
          (s.settleSystem options start.single) := by
    intro level options
    rw [hrun, Course.seen_ofSearch]
    rfl
  refine .started harguments hstart hseen ?_
  intro run hslopes hkeeps e he
  have hends : Ends (fun e : Ending (Grid Float) => e.point.shape = [start.point.length])
      (Sand.Keeping start.point.length) (Sand.search s.limit.count tol start.point) :=
    .report (Sand.ends_iterate _ _ _ rfl)
  exact hends.of_runFrom (fun _ _ _ hx hslope => hkeeps.keeping hm hslopes hx hslope) he

theorem of_method (hm : ∀ tol, s.method ≠ .brent tol) (arguments : List Value)
    (function : Option Function) : s.Iterates arguments function := by
  cases h : s.method with
  | brent tol => exact absurd h (hm tol)
  | newton f g =>
    refine of_system (fun level options start tol =>
      (s.showing level).runNewton options f g start tol) ?_ ?_
    · intro level options
      simp only [Solver.run, showing, h]
    · intro x tail start tol harguments hstart hrun
      exact .of_vectors (Newton.search s.limit.count tol start.point) (s.newtonCaller f g)
        (fun d => Progress.residualDetail (.vector d.1, .vector d.2)) (.ofGrid <| .vector ·.1)
        harguments hstart hrun (Newton.measured_search _ _ rfl).ends
  | sand f g =>
    refine of_system (fun level options start tol =>
      (s.showing level).runSand options f g start tol) ?_ ?_
    · intro level options
      simp only [Solver.run, showing, h]
    · intro x tail start tol harguments hstart hrun
      exact of_flow h harguments hstart hrun
  | broyden f =>
    refine of_fixedPoint f (Broyden.search s.limit.count) ?_ ?_
    · intro level options
      simp only [Solver.run, showing, h]
    · exact fun tol x => (Broyden.measured_search _ tol rfl).ends
  | steffensen f =>
    refine of_fixedPoint f (Steffensen.search s.limit.count) ?_ ?_
    · intro level options
      simp only [Solver.run, showing, h]
    · exact fun tol x => (Steffensen.measured_search _ tol rfl).ends
  | wegstein f =>
    refine of_fixedPoint f (Wegstein.search s.limit.count) ?_ ?_
    · intro level options
      simp only [Solver.run, showing, h]
    · exact fun tol x => (Wegstein.measured_search _ tol rfl).ends

end Solver.Iterates

end Systems

theorem Solver.exists_course_bracket {s : Solver} {tol : RootTolerance} (hm : s.method = .brent tol)
    (arguments : List Value) (function : Option Function) (strict : Option Bool) :
    ∃ course : Course (Brent.Ending Double Quantity), ∀ level full,
      (s.showing level).run arguments function ⟨full, strict⟩ =
        course.seen s.method.name level (s.settleBracket ⟨full, strict⟩) := by
  rcases run_bracket_cases arguments function strict with ⟨cause, -, hfail⟩ |
    ⟨v, w, f, -, -, hrun⟩
  · exact ⟨.failed cause, fun level full => hfail (s.showing level) tol full hm⟩
  rcases runBracket_cases v w with ⟨cause, -, hfail⟩ | ⟨lower, upper, hv, hw⟩
  · exact ⟨.failed cause, fun level full => (hrun (s.showing level) tol full hm).trans (hfail ..)⟩
  · let search : Brent.Searching Value Quantity Double :=
      Brent.search s.limit.count (.ofFloat tol.value) lower upper
    refine ⟨.ofSearch Progress.bracketDetail .real Empty.elim (Brent.bracketCaller s f) search,
      fun level full => ?_⟩
    rw [hrun (s.showing level) tol full hm, Course.seen_ofSearch, Brent.runBracket_of_bounds hv hw]
    rfl

end RootFinding
