import RootFinding.Session.Basic
import RootFinding.Proofs.Session.Settings

/-!
# Configured sessions

What holds of the solvers of a session after any steps, those that fail included. Settings are
valid from the start, a copy differs from its original in the named setting alone, and of an
existing solver only the display level ever changes. A step that asks for a limit below one or for
a tolerance that is not above zero leaves the session as it was; its cause is the setting, unless
the tolerance is an integer beyond the doubles, which no message can show.
-/
namespace RootFinding
open Number

/-- The options and functions are those that a method of the family has. -/
structure Family.Admits (family : Family) (options : SolverOptions) (functions : Functions) :
    Prop where
  known : options.unknown = false
  tolerance : options.tolerance.isSome → family = .brent
  method : ∃ method, family.method functions = .ok method

/-- All that is left to read for a bracketing search is its tolerance. -/
theorem Family.method_brent {functions : Functions} {method : Value → Except Failure Method}
    (h : Family.brent.method functions = .ok method) :
    method = fun tol => do return .brent (← RootTolerance.ofValue tol) := by
  obtain ⟨value, slope⟩ := functions
  cases value <;> cases slope <;> cases h
  rfl

/-- A method is of the family it is made for, with the functions it is made from. -/
theorem Method.of_family {family : Family} {functions : Functions}
    {method : Value → Except Failure Method} (hmethod : family.method functions = .ok method)
    {v : Value} {made : Method} (hmade : method v = .ok made) :
    made.family = family ∧ made.functions = functions ∧
      ∀ tol, made = .brent tol → RootTolerance.ofValue v = .ok tol := by
  obtain ⟨value, slope⟩ := functions
  unfold Family.method at hmethod
  split at hmethod <;> cases hmethod
  case h_1 hvalue hslope =>
    obtain ⟨tol, htol, hmade⟩ := exists_of_bind_eq_ok hmade
    cases hmade
    cases (hvalue : value = none)
    cases (hslope : slope = none)
    exact ⟨rfl, rfl, fun _ heq => by cases heq; exact htol⟩
  all_goals
    cases hmade
    simp_all [Method.family, Method.functions]

namespace Solver
variable {family : Family} {options : SolverOptions} {functions : Functions}

/-- Where options and functions fit, the limit is read, then what is left of the method. -/
theorem create_of_admits (h : family.Admits options functions) :
    ∃ method, family.method functions = .ok method ∧
      create family options functions = do
        let limit ← Limit.ofValue (options.limit.getD (.int family.defaultLimit))
        let method ← method (options.tolerance.getD Family.defaultTolerance)
        return { method, limit, display := options.display.getD (.int 0) } := by
  obtain ⟨hknown, htol, method, hmethod⟩ := h
  have hfits : (options.unknown || (family != .brent && options.tolerance.isSome)) = false := by
    rw [hknown, Bool.false_or, Bool.and_eq_false_iff, bne_eq_false_iff_eq]
    cases hsome : options.tolerance.isSome with
    | false => exact .inr rfl
    | true => exact .inl (htol hsome)
  refine ⟨method, hmethod, ?_⟩
  rw [create, hfits, hmethod]
  rfl

/-- A limit that cannot be read is the cause for which there is no new solver. -/
theorem create_of_limit_error (h : family.Admits options functions) {v : Value}
    (hv : options.limit = some v) {cause : Failure} (hcause : Limit.ofValue v = .error cause) :
    create family options functions = .error cause := by
  obtain ⟨method, -, hcreate⟩ := create_of_admits h
  rw [hcreate, hv, Option.getD_some, hcause]
  rfl

theorem create_of_tolerance_error (h : Family.brent.Admits options functions) {v : Value}
    (hv : options.tolerance = some v) {limit : Limit}
    (hlimit : Limit.ofValue (options.limit.getD (.int Family.brent.defaultLimit)) = .ok limit)
    {cause : Failure} (hcause : RootTolerance.ofValue v = .error cause) :
    create .brent options functions = .error cause := by
  obtain ⟨method, hmethod, hcreate⟩ := create_of_admits h
  rw [hcreate, hlimit, hv, Option.getD_some, Family.method_brent hmethod]
  change ((RootTolerance.ofValue v).bind _).bind _ = _
  rw [hcause]
  rfl

/-- A bracketing search is new with the settings that are read for it. -/
theorem create_brent (h : Family.brent.Admits options functions) {limit : Limit}
    {tol : RootTolerance}
    (hlimit : Limit.ofValue (options.limit.getD (.int Family.brent.defaultLimit)) = .ok limit)
    (htol : RootTolerance.ofValue (options.tolerance.getD Family.defaultTolerance) = .ok tol) :
    create .brent options functions =
      .ok { method := .brent tol, limit, display := options.display.getD (.int 0) } := by
  obtain ⟨method, hmethod, hcreate⟩ := create_of_admits h
  rw [hcreate, hlimit, Family.method_brent hmethod]
  simp [htol, bind, Except.bind, pure, Except.pure]

/-- A new solver is of the family and has the settings and functions asked for. -/
theorem of_create {s : Solver} (h : create family options functions = .ok s) :
    s.method.family = family ∧ s.method.functions = functions ∧
      s.display = options.display.getD (.int 0) ∧
      (options.limit.getD (.int family.defaultLimit)).toInt = .ok (s.limit.count : Int) ∧
      ∀ tol, s.method = .brent tol →
        (options.tolerance.getD Family.defaultTolerance).Positive ∧
          (options.tolerance.getD Family.defaultTolerance).toFloat = .ok tol.value := by
  unfold create at h
  split at h
  case isTrue => cases h
  case isFalse =>
    obtain ⟨method, hmethod, h⟩ := exists_of_bind_eq_ok h
    obtain ⟨limit, hlimit, h⟩ := exists_of_bind_eq_ok h
    obtain ⟨made, hmade, h⟩ := exists_of_bind_eq_ok h
    cases h
    obtain ⟨hfamily, hfunctions, htol⟩ := Method.of_family hmethod hmade
    exact ⟨hfamily, hfunctions, rfl, Limit.ofValue_eq_ok_iff.1 hlimit,
      fun tol heq => RootTolerance.ofValue_eq_ok_iff.1 (htol tol heq)⟩

end Solver

/-- The display level of the solver of a number after a step: only setting it changes it. -/
def Step.displayAfter (number : Nat) (display : Value) : Step → Value
  | .setDisplay k level => if k = number then level else display
  | _ => display

namespace Session
variable {session : Session} {number : Nat} {s : Solver}

def run (session : Session) (steps : List Step) : Session :=
  steps.foldl (fun session step => (session.step step).1) session

/-- Steps that ask for a solver with the limit `v`. -/
inductive AsksLimit (session : Session) (v : Value) : Step → Prop
  | create {family : Family} {options : SolverOptions} {functions : Functions}
      (h : family.Admits options functions) (hv : options.limit = some v) :
      AsksLimit session v (.create family options functions)
  | copy {number : Nat} {s : Solver} (h : session.solvers[number]? = some s) :
      AsksLimit session v (.withLimit number v)

/-- Steps that ask for a bracketing search with the tolerance `v`, and for no limit below one. -/
inductive AsksTolerance (session : Session) (v : Value) : Step → Prop
  | create {options : SolverOptions} {functions : Functions} {limit : Limit}
      (h : Family.brent.Admits options functions)
      (hlimit : (options.limit.getD (.int Family.brent.defaultLimit)).toInt =
        .ok (limit.count : Int))
      (hv : options.tolerance = some v) :
      AsksTolerance session v (.create .brent options functions)
  | copy {number : Nat} {s : Solver} (h : session.solvers[number]? = some s)
      (hs : s.method.family = .brent) : AsksTolerance session v (.withTolerance number v)

theorem solver_eq_ok (h : session.solvers[number]? = some s) : session.solver number = .ok s := by
  rw [solver, h]

theorem getElem?_register (h : session.solvers[number]? = some s)
    (made : Except Failure Solver) : (session.register made).1.solvers[number]? = some s := by
  cases made with
  | error cause => exact h
  | ok s' =>
    obtain ⟨hlt, -⟩ := Array.getElem?_eq_some_iff.1 h
    rw [register, Array.getElem?_push, if_neg hlt.ne, h]

theorem getElem?_step (h : session.solvers[number]? = some s) (step : Step) :
    (session.step step).1.solvers[number]? =
      some { s with display := step.displayAfter number s.display } := by
  cases step with
  | create family options functions => exact getElem?_register h _
  | withLimit k limit => exact getElem?_register h _
  | withTolerance k tolerance => exact getElem?_register h _
  | setDisplay k level =>
    by_cases hk : k = number
    · subst hk
      obtain ⟨hlt, -⟩ := Array.getElem?_eq_some_iff.1 h
      simp [step, setDisplay, solver_eq_ok h, Step.displayAfter, hlt]
    · cases hsolver : session.solver k with
      | error cause => simpa [step, setDisplay, hsolver, Step.displayAfter, hk] using h
      | ok s' => simpa [step, setDisplay, hsolver, Step.displayAfter, hk] using h
  | describe k => exact h
  | solve k arguments function options => exact h

theorem getElem?_run (h : session.solvers[number]? = some s) (steps : List Step) :
    (session.run steps).solvers[number]? =
      some { s with display := steps.foldl (Step.displayAfter number) s.display } := by
  induction steps generalizing session s with
  | nil => exact h
  | cons step steps ih => exact ih (getElem?_step h step)

theorem register_of_error {made : Except Failure Solver} {cause : Failure}
    (h : (session.register made).2 = .error cause) : (session.register made).1 = session := by
  cases made with
  | error cause => rfl
  | ok s => cases h

theorem step_of_error {step : Step} {cause : Failure} (h : (session.step step).2 = .error cause) :
    (session.step step).1 = session := by
  cases step with
  | create family options functions => exact register_of_error h
  | withLimit k limit => exact register_of_error h
  | withTolerance k tolerance => exact register_of_error h
  | setDisplay k level =>
    cases hsolver : session.solver k with
    | error cause => simp [Session.step, setDisplay, hsolver]
    | ok s => simp [Session.step, setDisplay, hsolver] at h
  | describe k => rfl
  | solve k arguments function options => rfl

theorem step_withLimit (h : session.solvers[number]? = some s) (v : Value) :
    session.step (.withLimit number v) = session.register (s.withLimit v) := by
  rw [step, solver_eq_ok h]
  rfl

theorem step_withTolerance (h : session.solvers[number]? = some s) (v : Value) :
    session.step (.withTolerance number v) = session.register (s.withTolerance v) := by
  rw [step, solver_eq_ok h]
  rfl

theorem step_withLimit_of_ok (h : session.solvers[number]? = some s) {v : Value} {limit : Limit}
    (hv : Limit.ofValue v = .ok limit) :
    session.step (.withLimit number v) = session.register (.ok { s with limit }) := by
  rw [step_withLimit h, Solver.withLimit, hv]
  rfl

theorem step_withTolerance_of_ok (h : session.solvers[number]? = some s)
    {old tol : RootTolerance} (hs : s.method = .brent old) {v : Value}
    (hv : RootTolerance.ofValue v = .ok tol) :
    session.step (.withTolerance number v) =
      session.register (.ok { s with method := .brent tol }) := by
  rw [step_withTolerance h, Solver.withTolerance, hs, hv]
  rfl

theorem getElem?_register_size (session : Session) (s : Solver) :
    (session.register (.ok s)).1.solvers[session.solvers.size]? = some s :=
  Array.getElem?_push_size

theorem step_of_asksLimit {v : Value} {step : Step} (h : session.AsksLimit v step)
    {cause : Failure} (hcause : Limit.ofValue v = .error cause) :
    session.step step = (session, .error cause) := by
  cases h with
  | create h hv => rw [Session.step, Solver.create_of_limit_error h hv hcause]; rfl
  | copy h => rw [step_withLimit h, Solver.withLimit, hcause]; rfl

theorem step_of_asksTolerance {v : Value} {step : Step} (h : session.AsksTolerance v step)
    {cause : Failure} (hcause : RootTolerance.ofValue v = .error cause) :
    session.step step = (session, .error cause) := by
  cases h with
  | create h hlimit hv =>
    rw [Session.step, Solver.create_of_tolerance_error h hv (Limit.ofValue_eq_ok_iff.2 hlimit)
      hcause]
    rfl
  | copy h hs =>
    obtain ⟨tol, htol⟩ := Method.exists_of_family_brent hs
    rw [step_withTolerance h, Solver.withTolerance, htol, hcause]
    rfl

theorem register_of_number {made : Except Failure Solver} {k : Nat}
    (h : (session.register made).2 = .ok (.number k)) :
    ∃ s, made = .ok s ∧ (session.register made).1.solvers = session.solvers.push s ∧
      k = session.solvers.size := by
  cases made with
  | error cause => cases h
  | ok s => cases h; exact ⟨s, rfl, rfl, rfl⟩

theorem solver_run_pair {first second : Step} {s₁ s₂ : Solver}
    (hfirst : session.step first = session.register (.ok s₁))
    (hsecond : ∀ next : Session, next.solvers[session.solvers.size]? = some s₁ →
      next.step second = next.register (.ok s₂)) :
    (session.run [first, second]).solver (session.solvers.size + 1) = .ok s₂ := by
  have hrun : session.run [first, second] =
      ((session.register (.ok s₁)).1.register (.ok s₂)).1 := by
    rw [← hsecond _ (getElem?_register_size session s₁), ← hfirst]
    rfl
  have hsize : session.solvers.size + 1 = (session.register (.ok s₁)).1.solvers.size :=
    (Array.size_push ..).symm
  rw [hrun, hsize]
  exact solver_eq_ok (getElem?_register_size _ s₂)

theorem solver_run_single {first : Step} {s₁ : Solver}
    (hfirst : session.step first = session.register (.ok s₁)) :
    (session.run [first]).solver session.solvers.size = .ok s₁ := by
  change (session.step first).1.solver _ = _
  rw [hfirst]
  exact solver_eq_ok (getElem?_register_size session s₁)

/-- What holds of the solvers of a session, whatever steps made it. -/
structure Configured (session : Session) : Prop where
  /-- Limits are at least one, and a bracketing search has a tolerance above zero. -/
  valid : ∀ s ∈ session.solvers, 1 ≤ s.limit.count ∧
    (s.method.family = .brent → ∃ tol, s.method = .brent tol ∧ 0 < tol.value)
  /-- A new solver has the settings asked for, or else those of its family. -/
  created : ∀ family options functions k,
    (session.step (.create family options functions)).2 = .ok (.number k) →
    ∃ s, (session.step (.create family options functions)).1.solvers = session.solvers.push s ∧
      k = session.solvers.size ∧ s.method.family = family ∧ s.method.functions = functions ∧
      s.display = options.display.getD (.int 0) ∧
      (options.limit.getD (.int family.defaultLimit)).toInt = .ok (s.limit.count : Int) ∧
      ∀ tol, s.method = .brent tol →
        (options.tolerance.getD Family.defaultTolerance).Positive ∧
          (options.tolerance.getD Family.defaultTolerance).toFloat = .ok tol.value
  /-- Whatever steps follow, a solver stays what it is up to its display level. -/
  kept : ∀ number (s : Solver), session.solvers[number]? = some s → ∀ more : List Step,
    (session.run more).solvers[number]? =
      some { s with display := more.foldl (Step.displayAfter number) s.display }
  /-- A step that fails changes nothing. -/
  failed : ∀ step cause, (session.step step).2 = .error cause → (session.step step).1 = session
  /-- A limit below one is refused. -/
  limitRefused : ∀ v step, session.AsksLimit v step → ∀ n, v.toInt = .ok n → n < 1 →
    session.step step = (session, .error .limitTooSmall)
  /-- A tolerance that is not above zero is refused. Where it is an integer beyond the doubles, the
  cause is the size of that integer. -/
  toleranceRefused : ∀ v step, session.AsksTolerance v step → v.NotPositive →
    (v.Oversized → session.step step = (session, .error (.toleranceTooSmall none))) ∧
      (¬v.Oversized → ∃ x, v.toFloat = .ok x ∧
        session.step step = (session, .error (.toleranceTooSmall (some (Decimal.generalText x)))))
  /-- A copy with another limit differs in the limit alone. -/
  limitCopied : ∀ number (s : Solver), session.solvers[number]? = some s →
    ∀ v n, v.toInt = .ok n → 1 ≤ n → ∃ limit : Limit, (limit.count : Int) = n ∧
      session.step (.withLimit number v) = session.register (.ok { s with limit })
  /-- A copy with another tolerance differs in the tolerance alone. -/
  toleranceCopied : ∀ number (s : Solver) old, session.solvers[number]? = some s → s.method = .brent old →
    ∀ v : Value, v.Positive → ¬v.Oversized → ∃ tol : RootTolerance, v.toFloat = .ok tol.value ∧
      session.step (.withTolerance number v) =
        session.register (.ok { s with method := .brent tol })
  /-- Any copy is what is created from the settings of the original with the named one replaced. -/
  recreated : ∀ number (s : Solver), session.solvers[number]? = some s → ∀ v,
    session.step (.withLimit number v) =
      session.step
        (.create s.method.family { s.settings with limit := some v } s.method.functions) ∧
    (s.method.family = .brent → session.step (.withTolerance number v) =
      session.step
        (.create s.method.family { s.settings with tolerance := some v } s.method.functions))
  /-- Replacing the tolerance and then the limit gives what replacing them the other way gives. -/
  commuting : ∀ number (s : Solver) old, session.solvers[number]? = some s → s.method = .brent old →
    ∀ (v w : Value) (n : Int), v.Positive → ¬v.Oversized → w.toInt = .ok n → 1 ≤ n →
    ∃ (tol : RootTolerance) (limit : Limit),
      v.toFloat = .ok tol.value ∧ (limit.count : Int) = n ∧
      (session.run [.withTolerance number v, .withLimit session.solvers.size w]).solver
        (session.solvers.size + 1) = .ok { s with method := .brent tol, limit } ∧
      (session.run [.withLimit number w, .withTolerance session.solvers.size v]).solver
        (session.solvers.size + 1) = .ok { s with method := .brent tol, limit }
  /-- Of two limits the last one counts. -/
  lastLimit : ∀ number (s : Solver), session.solvers[number]? = some s → ∀ (v w : Value) (m n : Int),
    v.toInt = .ok m → 1 ≤ m → w.toInt = .ok n → 1 ≤ n →
    ∃ copy, (session.run [.withLimit number w]).solver session.solvers.size = .ok copy ∧
      (session.run [.withLimit number v, .withLimit session.solvers.size w]).solver
        (session.solvers.size + 1) = .ok copy
  /-- Of two tolerances the last one counts. -/
  lastTolerance : ∀ number (s : Solver) old, session.solvers[number]? = some s → s.method = .brent old →
    ∀ v w : Value, v.Positive → ¬v.Oversized → w.Positive → ¬w.Oversized →
    ∃ copy, (session.run [.withTolerance number w]).solver session.solvers.size = .ok copy ∧
      (session.run [.withTolerance number v, .withTolerance session.solvers.size w]).solver
        (session.solvers.size + 1) = .ok copy

/-- Settings are valid and copied exactly in every session, and a step that asks for bad ones is
refused and changes nothing. -/
theorem configured_run (steps : List Step) : (({} : Session).run steps).Configured where
  valid s _ := by
    refine ⟨s.limit.positive, fun hs => ?_⟩
    obtain ⟨tol, htol⟩ := Method.exists_of_family_brent hs
    exact ⟨tol, htol, tol.positive⟩
  created family options functions k h := by
    obtain ⟨s, hcreate, hpush, hk⟩ := register_of_number h
    exact ⟨s, hpush, hk, Solver.of_create hcreate⟩
  kept number s h more := getElem?_run h more
  failed step cause h := step_of_error h
  limitRefused v step h n hv hn := step_of_asksLimit h (Limit.ofValue_of_lt hv hn)
  toleranceRefused v step h hv := by
    have hstep := step_of_asksTolerance h (RootTolerance.ofValue_of_notPositive hv)
    refine ⟨fun hbig => ?_, fun hsmall => ?_⟩
    · rw [hstep, RootTolerance.refusal_of_oversized hbig]
    · obtain ⟨x, hx⟩ := hv.exists_toFloat hsmall
      exact ⟨x, hx, by rw [hstep, RootTolerance.refusal_of_toFloat hx]⟩
  limitCopied number s h v n hv hn := by
    obtain ⟨limit, hcount, hread⟩ := Limit.exists_ofValue hv hn
    exact ⟨limit, hcount, step_withLimit_of_ok h hread⟩
  toleranceCopied number s old h hs v hv hsmall := by
    obtain ⟨tol, hvalue, hread⟩ := RootTolerance.exists_ofValue hv hsmall
    exact ⟨tol, hvalue, step_withTolerance_of_ok h hs hread⟩
  recreated number s h v := by
    refine ⟨?_, fun hs => ?_⟩
    · rw [step_withLimit h, Solver.withLimit_eq_create]
      rfl
    · obtain ⟨tol, htol⟩ := Method.exists_of_family_brent hs
      rw [step_withTolerance h, Solver.withTolerance_eq_create htol]
      rfl
  commuting number s old h hs v w n hv hsmall hw hn := by
    obtain ⟨tol, hvalue, htol⟩ := RootTolerance.exists_ofValue hv hsmall
    obtain ⟨limit, hcount, hlimit⟩ := Limit.exists_ofValue hw hn
    refine ⟨tol, limit, hvalue, hcount, ?_, ?_⟩
    · exact solver_run_pair (step_withTolerance_of_ok h hs htol)
        fun _ hcopy => step_withLimit_of_ok hcopy hlimit
    · exact solver_run_pair (step_withLimit_of_ok h hlimit)
        fun _ hcopy => step_withTolerance_of_ok hcopy hs htol
  lastLimit number s h v w m n hv hm hw hn := by
    obtain ⟨first, -, hfirst⟩ := Limit.exists_ofValue hv hm
    obtain ⟨last, -, hlast⟩ := Limit.exists_ofValue hw hn
    refine ⟨_, solver_run_single (step_withLimit_of_ok h hlast), ?_⟩
    exact solver_run_pair (step_withLimit_of_ok h hfirst)
      fun _ hcopy => step_withLimit_of_ok hcopy hlast
  lastTolerance number s old h hs v w hv hvsmall hw hwsmall := by
    obtain ⟨first, -, hfirst⟩ := RootTolerance.exists_ofValue hv hvsmall
    obtain ⟨last, -, hlast⟩ := RootTolerance.exists_ofValue hw hwsmall
    refine ⟨_, solver_run_single (step_withTolerance_of_ok h hs hlast), ?_⟩
    exact solver_run_pair (step_withTolerance_of_ok h hs hfirst)
      fun _ hcopy => step_withTolerance_of_ok hcopy rfl hlast

/-- A solver whose display level was changed is copied with it, under two new settings in either
order. -/
theorem configured_run_copied :
    ∃ (s : Solver) (tol : RootTolerance) (limit : Limit),
      (({} : Session).run [.create .brent {} {}, .setDisplay 0 (.int 3)]).solver 0 = .ok s ∧
      s.display = .int 3 ∧ (Value.int 2).toFloat = .ok tol.value ∧ limit.count = 7 ∧
      (({} : Session).run [.create .brent {} {}, .setDisplay 0 (.int 3),
        .withTolerance 0 (.int 2), .withLimit 1 (.int 7)]).solver 2 =
          .ok { s with method := .brent tol, limit } ∧
      (({} : Session).run [.create .brent {} {}, .setDisplay 0 (.int 3),
        .withLimit 0 (.int 7), .withTolerance 1 (.int 2)]).solver 2 =
          .ok { s with method := .brent tol, limit } := by
  obtain ⟨old, hold⟩ : ∃ old, RootTolerance.ofValue Family.defaultTolerance = .ok old :=
    ⟨_, RootTolerance.ofValue_value ⟨1e-8, by decide +kernel⟩⟩
  have hnew : Solver.create .brent {} {} =
      .ok { method := .brent old, limit := ⟨100, by decide⟩, display := .int 0 } :=
    Solver.create_brent ⟨rfl, fun _ => rfl, _, rfl⟩ (Limit.ofValue_count ⟨100, by decide⟩) hold
  have hs : (({} : Session).run [.create .brent {} {}, .setDisplay 0 (.int 3)]).solvers =
      #[{ method := .brent old, limit := ⟨100, by decide⟩, display := .int 3 }] := by
    simp [run, step, hnew, register, setDisplay, solver]
  obtain ⟨tol, limit, hv, hn, hone, hother⟩ :=
    (configured_run [.create .brent {} {}, .setDisplay 0 (.int 3)]).commuting 0 _ old
      (by rw [hs]; rfl) rfl (.int 2) (.int 7) 7 (show (0 : Int) < 2 by decide)
      (show ¬(2 ^ 54 - 1) * 2 ^ 970 ≤ (2 : Int).natAbs by decide +kernel) rfl (by decide)
  have hsize : (({} : Session).run [.create .brent {} {}, .setDisplay 0 (.int 3)]).solvers.size =
      1 := by rw [hs]; rfl
  rw [hsize] at hone hother
  exact ⟨_, tol, limit, solver_eq_ok (by rw [hs]; rfl), rfl, hv, by omega, hone, hother⟩

/-- A negative integer beyond the doubles is refused, but with an overflow and not for its value. -/
theorem oversized_not_shown : (Value.int (-10 ^ 400)).NotPositive ∧
    ({} : Session).step (.create .brent { tolerance := some (.int (-10 ^ 400)) } {}) =
      ({}, .error (.toleranceTooSmall none)) ∧
    (Failure.toleranceTooSmall none).message = "int too large to convert to float" ∧
    ∀ cause, (({} : Session).step
      (.create .brent { tolerance := some (.int (-10 ^ 400)) } {})).2 = .error cause →
        cause.kind = .overflow ∧ cause.kind ≠ .value := by
  have hv : (Value.int (-10 ^ 400)).NotPositive :=
    show -(10 : Int) ^ 400 ≤ 0 by decide +kernel
  have hbig : (Value.int (-10 ^ 400)).Oversized :=
    show (2 ^ 54 - 1) * 2 ^ 970 ≤ (-(10 : Int) ^ 400).natAbs by decide +kernel
  have hasks : ({} : Session).AsksTolerance (.int (-10 ^ 400))
      (.create .brent { tolerance := some (.int (-10 ^ 400)) } {}) :=
    .create ⟨rfl, fun _ => rfl, _, rfl⟩ (Limit.ofValue_eq_ok_iff.1 (Limit.ofValue_count
      ⟨100, by decide⟩)) rfl
  have hstep : ({} : Session).step (.create .brent { tolerance := some (.int (-10 ^ 400)) } {}) =
      ({}, .error (.toleranceTooSmall none)) := by
    rw [step_of_asksTolerance hasks (RootTolerance.ofValue_of_notPositive hv),
      RootTolerance.refusal_of_oversized hbig]
  refine ⟨hv, hstep, rfl, fun cause h => ?_⟩
  cases h.symm.trans (congrArg Prod.snd hstep)
  decide

end Session
end RootFinding
