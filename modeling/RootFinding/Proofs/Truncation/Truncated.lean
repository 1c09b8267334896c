import RootFinding.Proofs.Bracketing.Raised
import RootFinding.Proofs.FixedPoint.Secants
import RootFinding.Proofs.Truncation.Looser
import RootFinding.Proofs.Truncation.Solvers

/-!
# Stopping parameters truncate a run

The limit and the tolerances of a solver say when it has enough. They have no other part in what it
does: of two runs that differ in them one has the first calls of the other.
-/
namespace RootFinding.Solver
open Number Search

variable {s : Solver} {limit : Limit} {arguments : List Value} {function : Option Function}
  {options : RunOptions} {t : RootTolerance} {run run' : Run}

/-- Of two runs of a solver for systems from one start, one makes the first calls of the other. -/
theorem earlier_or (hm : ∀ tol, s.method ≠ .brent tol) {x : Value}
    {tolerances tolerances' : List Value} {options' : RunOptions}
    (hrun : s.run (x :: tolerances) function options = run)
    (hrun' : ({ s with limit }).run (x :: tolerances') function options' = run') :
    run.Earlier run' ∨ run'.Earlier run := by
  subst hrun hrun'
  have hcompared : s.Compared function (x :: tolerances) (x :: tolerances') := .of_method hm rfl
  cases hcompared with
  | refused cause h =>
    left
    have hfailed : s.run (x :: tolerances) function options = .failed cause := h s.limit options
    rw [hfailed]
    exact .of_failed ..
  | refused' cause h =>
    right
    rw [h]
    exact .of_failed ..
  | searched tol tol' hsame h =>
    have hpart := h (fun _ => True) (fun _ => True) s.limit limit (fun _ => .any ..)
      (fun _ => .any ..)
    exact hpart.earlier_or options options'

/-- A run of a solver for systems that converges is the same under a higher limit. -/
theorem run_eq_of_isConverged (hm : ∀ tol, s.method ≠ .brent tol)
    (hl : s.limit.count ≤ limit.count)
    (hc : (s.run arguments function { options with full := true }).isConverged = true) :
    ({ s with limit }).run arguments function options = s.run arguments function options := by
  have hcompared : s.Compared function arguments arguments := .of_method hm rfl
  have hnever {cause : Failure} (h : ∀ limit options,
      ({ s with limit }).run arguments function options = .failed cause) : False := by
    rw [show s.run arguments function _ = .failed cause from h s.limit _] at hc
    cases hc
  cases hcompared with
  | refused cause h => exact (hnever h).elim
  | refused' cause h => exact (hnever h).elim
  | searched tol tol' hsame h =>
    obtain rfl := hsame rfl
    have hpart := h (· = false) (fun _ => False) s.limit limit (fun _ => .unconverged ..)
      (fun _ => .never hl fun _ => id)
    exact hpart.eq_of_converged options hc

/-- A bracketing search makes its calls under a higher limit too, and has the same run where it
succeeds. -/
theorem run_bracket_raised (hm : s.method = .brent t) (hl : s.limit.count ≤ limit.count)
    (hrun : s.run arguments function options = run)
    (hrun' : ({ s with limit }).run arguments function options = run') :
    (∀ solution, run.outcome = .ok solution → run' = run) ∧
      run.evaluations.toList <+: run'.evaluations.toList := by
  rcases run_bracket_cases arguments function options.strict with ⟨cause, -, hfail⟩ |
    ⟨v, w, f, -, -, hbracket⟩
  · rw [hfail s t options.full hm] at hrun
    rw [hfail { s with limit } t options.full hm] at hrun'
    subst hrun hrun'
    exact ⟨fun _ _ => rfl, List.prefix_refl _⟩
  · rw [hbracket s t options.full hm] at hrun
    rw [hbracket { s with limit } t options.full hm] at hrun'
    exact Brent.runBracket_raised hl hrun hrun'

/-- A bracketing search of doubles that had reached its limit makes more calls under a higher one,
or finds that it has come to a root. -/
theorem run_bracket_extended (hm : s.method = .brent t) (hl : s.limit.count < limit.count)
    {f : Function} (hrun : s.run arguments (some f) options = run)
    (hrun' : ({ s with limit }).run arguments (some f) options = run')
    (hf : Brent.AnswersReals f run') {r : Report} (hout : run.outcome = .error (.notConverged r)) :
    run.evaluations.size < run'.evaluations.size ∨
      (run'.evaluations = run.evaluations ∧ ∃ solution, run'.outcome = .ok solution) := by
  rcases run_bracket_cases arguments (some f) options.strict with ⟨cause, hcause, hfail⟩ |
    ⟨v, w, g, -, hg, hbracket⟩
  · rw [hfail s t options.full hm] at hrun
    subst hrun
    cases hout
    exact (hcause r rfl).elim
  · cases hg
    rw [hbracket s t options.full hm] at hrun
    rw [hbracket { s with limit } t options.full hm] at hrun'
    exact Brent.runBracket_extended hl hrun hrun' hf hout

/-- Stopping parameters only truncate a run.

- Of two runs of a solver for systems from one start, under any limits and tolerances, one makes
  the first calls of the other, to its function and for Jacobians.
- A run of it that converges is the same under a higher limit.
- Over exact fractions a search under larger tolerances makes no further calls, and converges where
  the other one does.
- A bracketing search that succeeds has the same run under a higher limit. One that reached its
  limit makes the same calls first. More follow where its function answers doubles, unless the last
  call turns out to have come to a root. -/
theorem stopping_truncates :
    (∀ (s : Solver) (limit : Limit) x tolerances tolerances' function options options' run run',
      (∀ tol, s.method ≠ .brent tol) → s.run (x :: tolerances) function options = run →
      ({ s with limit }).run (x :: tolerances') function options' = run' →
        run.Earlier run' ∨ run'.Earlier run) ∧
    (∀ (s : Solver) (limit : Limit) arguments function options,
      (∀ tol, s.method ≠ .brent tol) → s.limit.count ≤ limit.count →
      (s.run arguments function { options with full := true }).isConverged = true →
        ({ s with limit }).run arguments function options = s.run arguments function options) ∧
    (∀ (limit : ℕ) (x : List ℚ),
      Loosens (List.Forall₂ (· ≤ ·)) (fun tol : List ℚ => Newton.search limit tol x) ∧
      Loosens (List.Forall₂ (· ≤ ·)) (fun tol : List ℚ => Sand.search limit tol x) ∧
      Loosens (List.Forall₂ Tolerance.Looser) (fun tol => Broyden.search limit tol x) ∧
      Loosens (List.Forall₂ Tolerance.Looser) (fun tol => Steffensen.search limit tol x) ∧
      Loosens (List.Forall₂ Tolerance.Looser) (fun tol => Wegstein.search limit tol x)) ∧
    ∀ (s : Solver) (limit : Limit) tol arguments function options run run',
      s.method = .brent tol → s.limit.count ≤ limit.count →
      s.run arguments function options = run →
      ({ s with limit }).run arguments function options = run' →
        (∀ solution, run.outcome = .ok solution → run' = run) ∧
        run.evaluations.toList <+: run'.evaluations.toList ∧
        ∀ f r, function = some f → Brent.AnswersReals f run' →
          run.outcome = .error (.notConverged r) → s.limit.count < limit.count →
            run.evaluations.size < run'.evaluations.size ∨
              (run'.evaluations = run.evaluations ∧ ∃ solution, run'.outcome = .ok solution) := by
  refine ⟨?_, ?_, ?_, ?_⟩
  · intro s limit x tolerances tolerances' function options options' run run'
    exact fun hm hrun hrun' => earlier_or hm hrun hrun'
  · intro s limit arguments function options
    exact run_eq_of_isConverged
  · intro limit x
    exact ⟨Newton.loosens limit x, Sand.loosens limit x, Broyden.loosens limit x,
      Steffensen.loosens limit x, Wegstein.loosens limit x⟩
  · intro s limit tol arguments function options run run' hm hl hrun hrun'
    obtain ⟨hsame, hcalls⟩ := run_bracket_raised hm hl hrun hrun'
    refine ⟨hsame, hcalls, ?_⟩
    rintro f r rfl hf hout hlt
    exact run_bracket_extended hm hlt hrun hrun' hf hout

def halving (limit : Limit) : Solver := ⟨.steffensen halfAndOne, limit, .int 0⟩

def halvingRun (limit : Limit) (tol : Float) : Run :=
  (halving limit).run [.ofFloat 1, .ofFloat tol, .ofFloat 0] none { full := true }

def bracketing (limit : Limit) : Solver := ⟨.brent Brent.halfTolerance, limit, .int 0⟩

def rootRun (limit : Limit) : Run :=
  (bracketing limit).run [.int 0, .int 2] (some Brent.squareLessTwo) {}

/-- Runs that converge, and runs that reach their limit, next to runs that are to stop earlier or
later. -/
theorem stopping_truncates_halves :
    (halvingRun ⟨1, by decide⟩ 1e-9).Earlier (halvingRun ⟨5, by decide⟩ 1e-6) ∧
    halvingRun ⟨9, by decide⟩ 1e-9 = halvingRun ⟨5, by decide⟩ 1e-9 ∧
    (∃ e, ((Steffensen.search 1 [⟨2, 0⟩] [1]).run growing).outcome = .ok e ∧
      e.converged = true) ∧
    rootRun ⟨7, by decide⟩ = rootRun ⟨3, by decide⟩ ∧
    (rootRun ⟨1, by decide⟩).evaluations.size < (rootRun ⟨2, by decide⟩).evaluations.size := by
  obtain ⟨hearlier, hsame, hloosens, hbracket⟩ := stopping_truncates
  refine ⟨?_, ?_, ?_, ?_, ?_⟩
  · have hor : (halvingRun ⟨1, by decide⟩ 1e-9).Earlier (halvingRun ⟨5, by decide⟩ 1e-6) ∨ _ :=
      hearlier (halving ⟨1, by decide⟩) ⟨5, by decide⟩ _ _ _ _ _ _ _ _ (by rintro tol ⟨⟩) rfl rfl
    refine hor.resolve_right fun h => ?_
    exact absurd h.evaluations.length_le (by decide +kernel)
  · exact hsame (halving ⟨5, by decide⟩) ⟨9, by decide⟩ _ _ _ (by rintro tol ⟨⟩) (by decide)
      (by decide +kernel)
  · obtain ⟨-, -, -, hsteffensen, -⟩ := hloosens 1 [1]
    have hloosened := hsteffensen growing (fun _ => false) (fun _ => rfl) [⟨1, 0⟩] [⟨2, 0⟩]
      (by simp [Tolerance.Looser])
    have hstrict : (((Steffensen.search 1 [⟨1, 0⟩] [1]).run growing).outcome.toOption.any
        Ending.converged) = true := by
      decide +kernel
    cases ho : ((Steffensen.search 1 [⟨1, 0⟩] [1]).run growing).outcome with
    | ok e =>
      rw [ho] at hstrict
      exact hloosened.converged e ho hstrict
    | error cause =>
      rw [ho] at hstrict
      cases hstrict
  · have hok : (rootRun ⟨3, by decide⟩).outcome.isOk = true := by decide +kernel
    cases ho : (rootRun ⟨3, by decide⟩).outcome with
    | ok solution =>
      obtain ⟨hroot, -, -⟩ := hbracket (bracketing ⟨3, by decide⟩) ⟨7, by decide⟩ _ _ _ _ _ _ rfl
        (by decide) rfl rfl
      exact hroot solution ho
    | error cause =>
      rw [ho] at hok
      cases hok
  · have hcapped : Brent.isCapped (rootRun ⟨1, by decide⟩) = true := by decide +kernel
    obtain ⟨r, hr⟩ := Brent.exists_report hcapped
    obtain ⟨-, -, hcalls⟩ := hbracket (bracketing ⟨1, by decide⟩) ⟨2, by decide⟩ _ _ _ _ _ _ rfl
      (by decide) rfl rfl
    have hmore := hcalls _ r rfl (fun _ x _ => ⟨x * x - 2, rfl⟩) hr (by decide)
    exact hmore.resolve_right fun h => absurd (congrArg Array.size h.1) (by decide +kernel)

end RootFinding.Solver
