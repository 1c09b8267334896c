import RootFinding.Proofs.FixedPoint.Restart
import RootFinding.Proofs.Iteration.Arguments
import RootFinding.Proofs.Truncation.Methods

/-!
# Solvers under other limits and tolerances

A solver for systems reads its start and its tolerances before it does anything else. Under another
limit, or with other tolerances for the same start, it follows a search that forks from its own.
-/
namespace RootFinding
open Search Iteration

structure Run.Earlier (run run' : Run) : Prop where
  evaluations : run.evaluations.toList <+: run'.evaluations.toList
  slopes : run.slopes.toList <+: run'.slopes.toList

theorem Run.Earlier.of_failed (cause : Failure) (run : Run) : (Run.failed cause).Earlier run :=
  ⟨List.nil_prefix, List.nil_prefix⟩

theorem Trace.Earlier.ofTrace {Point Site Detail Answer : Type}
    {t t' : Trace Point Site Detail Answer} (h : t.Earlier t') (line : Note Detail → String)
    (point : Point → Value) (place : Site → Value)
    (settle settle' : Answer → Except Failure Solution) :
    (Run.ofTrace line point place settle t).Earlier (.ofTrace line point place settle' t') := by
  constructor
  · simpa [Run.ofTrace] using h.evaluations.map point
  · simpa [Run.ofTrace] using h.slopes.map place

/-- Which of two searches under these limits and tolerances may end first, whatever they test. -/
def MayStop {Tolerances : Type} (ends : Bool → Prop) (limit limit' : Limit)
    (tol tol' : Tolerances) : Prop :=
  ∀ {Point Tested : Type} (test : Tolerances → Tested → Bool),
    MayEnd (fun e : Ending Point => ends e.converged) limit.count limit'.count (test tol)
      (test tol')

variable {s : Solver} {function : Option Function} {arguments arguments' : List Value}

theorem Solver.settleSystem_limit {limit limit' : Limit} (options : RunOptions) (single : Bool)
    {e : Ending (Grid Float)} (he : e.converged = true) :
    ({ s with limit }).settleSystem options single e =
      ({ s with limit := limit' }).settleSystem options single e := by
  simp only [settleSystem, he, Bool.not_true, Bool.false_and, Bool.false_eq_true, if_false]
  rfl

namespace Solver

/-- The runs of a solver under two limits, whose traces part at most once. -/
inductive Part (L R : Bool → Prop) (s : Solver) (limit limit' : Limit) :
    (RunOptions → Run) → (RunOptions → Run) → Prop
  | intro {Point Site Detail : Type} {shows : Note Detail → Except Failure Bool}
    {t t' : Trace Point Site Detail (Ending Point)} (line : Note Detail → String)
    (point : Point → Value) (place : Site → Value) (form : Ending Point → Ending (Grid Float))
    (hform : ∀ e, (form e).converged = e.converged) (single : Bool)
    (h : t.Parts (fun e => L e.converged) (fun e => R e.converged) shows t') :
    Part L R s limit limit'
      (fun options => .ofTrace line point place
        (fun e => ({ s with limit }).settleSystem options single (form e)) t)
      (fun options => .ofTrace line point place
        (fun e => ({ s with limit := limit' }).settleSystem options single (form e)) t')

namespace Part
variable {L R : Bool → Prop} {limit limit' : Limit} {run run' : RunOptions → Run}

theorem earlier_or (h : Part L R s limit limit' run run') (options options' : RunOptions) :
    (run options).Earlier (run' options') ∨ (run' options').Earlier (run options) := by
  cases h with
  | intro line point place form hform single h =>
    exact h.earlier_or.imp (fun h => h.ofTrace ..) fun h => h.ofTrace ..

/-- Where only an unconverged run may end first, a converged one is the same as the other. -/
theorem eq_of_converged
    (h : Part (· = false) (fun _ => False) s limit limit' run run') (options : RunOptions)
    (hc : (run { options with full := true }).isConverged = true) :
    run' options = run options := by
  cases h with
  | @intro _ _ _ _ t t' line point place form hform single h =>
    obtain ⟨answer, hanswer⟩ := Run.exists_convergesTo hc
    have hsettled : (t.outcome.bind fun e => ({ s with limit }).settleSystem
        { options with full := true } single (form e)) =
        (t.outcome.map form).bind
          (({ s with limit }).settleSystem { options with full := true } single) := by
      cases t.outcome <;> rfl
    obtain ⟨_, hend, hconverged, -⟩ := (Run.convergesTo_iff hsettled (.inl rfl) answer).1 hanswer
    obtain ⟨e, he, rfl⟩ := exists_of_map_eq_ok hend
    have hsame : t' = t := h.eq_of_ok he (by rw [← hform, hconverged]; exact nofun)
    simp only [Run.ofTrace, hsame, he]
    congr 1
    exact settleSystem_limit options single hconverged

end Part

/-- What becomes of two arguments for a solver: it refuses one of them whatever its limit is, or
runs searches that fork as the limits and the tolerances have it. -/
inductive Compared (s : Solver) (function : Option Function) (arguments arguments' : List Value) :
    Prop
  | refused (cause : Failure)
    (h : ∀ limit options, ({ s with limit }).run arguments function options = .failed cause)
  | refused' (cause : Failure)
    (h : ∀ limit options, ({ s with limit }).run arguments' function options = .failed cause)
  | searched {Tolerances : Type} (tol tol' : Tolerances)
    (hsame : arguments = arguments' → tol = tol')
    (h : ∀ L R limit limit', MayStop L limit limit' tol tol' → MayStop R limit' limit tol' tol →
      Part L R s limit limit' (({ s with limit }).run arguments function)
        (({ s with limit := limit' }).run arguments' function))

namespace Compared

theorem of_runs {Tolerances : Type} {tol tol' : Tolerances}
    (run : Limit → RunOptions → Tolerances → Run) (hsame : arguments = arguments' → tol = tol')
    (hrun : ∀ limit options,
      ({ s with limit }).run arguments function options = run limit options tol)
    (hrun' : ∀ limit options,
      ({ s with limit }).run arguments' function options = run limit options tol')
    (h : ∀ L R limit limit', MayStop L limit limit' tol tol' → MayStop R limit' limit tol' tol →
      Part L R s limit limit' (run limit · tol) (run limit' · tol')) :
    s.Compared function arguments arguments' := by
  refine .searched tol tol' hsame fun L R limit limit' hl hr => ?_
  have hfirst : ({ s with limit }).run arguments function = (run limit · tol) :=
    funext (hrun limit)
  have hsecond : ({ s with limit := limit' }).run arguments' function = (run limit' · tol') :=
    funext (hrun' limit')
  rw [hfirst, hsecond]
  exact h L R limit limit' hl hr

theorem of_system (hx : arguments.head? = arguments'.head?)
    (run : Limit → RunOptions → Start → List Float → Run)
    (hrun : ∀ arguments limit options, ({ s with limit }).run arguments function options =
      runSystem arguments (run limit options))
    (h : ∀ start tol tol', tol.length = tol'.length → ∀ L R limit limit',
      MayStop L limit limit' tol tol' → MayStop R limit' limit tol' tol →
        Part L R s limit limit' (run limit · start tol) (run limit' · start tol')) :
    s.Compared function arguments arguments' := by
  rcases runSystem_cases arguments with ⟨cause, hfail⟩ |
    ⟨x, v, start, tol, rfl, hprepare, hread⟩
  · exact .refused cause fun limit options => (hrun ..).trans (hfail _)
  rcases runSystem_cases arguments' with ⟨cause, hfail⟩ |
    ⟨x', v', start', tol', rfl, hprepare', hread'⟩
  · exact .refused' cause fun limit options => (hrun ..).trans (hfail _)
  obtain rfl : x = x' := Option.some.inj hx
  obtain ⟨hstart, hlength, -⟩ := prepare_restart hprepare
  obtain ⟨hstart', hlength', -⟩ := prepare_restart hprepare'
  obtain rfl : start = start' := Except.ok.inj (hstart.symm.trans hstart')
  refine of_runs (run · · start ·) ?_ (fun limit options => (hrun ..).trans (hread _))
    (fun limit options => (hrun ..).trans (hread' _)) (h start tol tol' ?_)
  · rintro ⟨⟩
    cases hprepare.symm.trans hprepare'
    rfl
  · rw [hlength, hlength']

theorem of_fixedPoint (hx : arguments.head? = arguments'.head?) (f : Function)
    (search : Nat → List (Tolerance Float) → List Float →
      Iteration.Searching Float Empty Empty (List Float))
    (hrun : ∀ arguments limit options, ({ s with limit }).run arguments function options =
      ({ s with limit }).runFixedPoint options f arguments (search limit.count))
    (h : ∀ x tol tol' L R limit limit', MayStop L limit limit' tol tol' →
      MayStop R limit' limit tol' tol →
        Forks (fun e => L e.converged) (fun e => R e.converged) (search limit.count tol x)
          (search limit'.count tol' x)) :
    s.Compared function arguments arguments' := by
  rcases runFixedPoint_cases arguments with ⟨cause, hfail⟩ |
    ⟨x, absolute, relative, start, tol, rfl, hprepare, hread⟩
  · exact .refused cause fun limit options => (hrun ..).trans (hfail ..)
  rcases runFixedPoint_cases arguments' with ⟨cause, hfail⟩ |
    ⟨x', absolute', relative', start', tol', rfl, hprepare', hread'⟩
  · exact .refused' cause fun limit options => (hrun ..).trans (hfail ..)
  obtain rfl : x = x' := Option.some.inj hx
  obtain rfl : start = start' := Except.ok.inj
    ((prepareRelative_restart hprepare).1.symm.trans (prepareRelative_restart hprepare').1)
  refine of_runs (fun limit options tol => ({ s with limit }).runValues options f start
    (search limit.count tol start.point)) ?_ (fun limit options => (hrun ..).trans (hread ..))
    (fun limit options => (hrun ..).trans (hread' ..)) ?_
  · rintro ⟨⟩
    cases hprepare.symm.trans hprepare'
    rfl
  · intro L R limit limit' hl hr
    exact .intro _ _ _ gridEnding (fun _ => rfl) start.single
      ((h start.point tol tol' L R limit limit' hl hr).run (s.valueCaller f))

/-- A solver for systems is compared under all limits and tolerances that come with one start. -/
theorem of_method (hm : ∀ tol, s.method ≠ .brent tol) (hx : arguments.head? = arguments'.head?) :
    s.Compared function arguments arguments' := by
  cases hs : s.method with
  | brent tol => exact absurd hs (hm tol)
  | newton f g =>
    refine of_system hx
      (fun limit options start tol => ({ s with limit }).runNewton options f g start tol) ?_ ?_
    · intro arguments limit options
      simp only [Solver.run, hs]
    · intro start tol tol' _ L R limit limit' hl hr
      have hforks : Forks (fun e => L e.converged) (fun e => R e.converged)
          (Newton.search limit.count tol start.point)
          (Newton.search limit'.count tol' start.point) :=
        .report _ (Newton.forks_iterate (hl Newton.isRoot) (hr Newton.isRoot) 0 start.point)
      exact .intro _ _ _ gridEnding (fun _ => rfl) start.single (hforks.run (s.newtonCaller f g))
  | sand f g =>
    refine of_system hx
      (fun limit options start tol => ({ s with limit }).runSand options f g start tol) ?_ ?_
    · intro arguments limit options
      simp only [Solver.run, hs]
    · intro start tol tol' hlength L R limit limit' hl hr
      let test (tol : List Float) (p : Grid Float × Grid Float) := Sand.test (.vector tol) p.1 p.2
      have hforks : Forks (fun e => L e.converged) (fun e => R e.converged)
          (Sand.search limit.count tol start.point) (Sand.search limit'.count tol' start.point) :=
        .report _ (Sand.forks_iterate (congrArg (fun n => [n]) hlength) (hl test) (hr test) 0 _)
      exact .intro _ _ _ id (fun _ => rfl) start.single (hforks.run (s.flowCaller f g))
  | broyden f =>
    refine of_fixedPoint hx f Broyden.search ?_ ?_
    · intro arguments limit options
      simp only [Solver.run, hs]
    · intro x tol tol' L R limit limit' hl hr
      exact Broyden.forks_search (hl Tolerance.passes) (hr Tolerance.passes) x
  | steffensen f =>
    refine of_fixedPoint hx f Steffensen.search ?_ ?_
    · intro arguments limit options
      simp only [Solver.run, hs]
    · intro x tol tol' L R limit limit' hl hr
      exact .report _ (Steffensen.forks_iterate (hl Tolerance.passes) (hr Tolerance.passes) 0 x)
  | wegstein f =>
    refine of_fixedPoint hx f Wegstein.search ?_ ?_
    · intro arguments limit options
      simp only [Solver.run, hs]
    · intro x tol tol' L R limit limit' hl hr
      exact Wegstein.forks_search (hl Tolerance.passes) (hr Tolerance.passes) x

end Compared
end Solver
end RootFinding
