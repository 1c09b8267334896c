import RootFinding.Proofs.Iteration.Criterion

/-!
# Converged answers

A solver that tests each of its calls converges exactly when one of them passes: at the first such
call, which is its last, and with the argument of that call as its answer. A function without
memory passes there again, so that a search started from the answer gives it back after one call.
-/
namespace RootFinding
open Number Search
variable {s : Solver} {options : RunOptions} {arguments : List Value} {c : Criterion} {run : Run}

/-- Options under which a run tells whether it converged: by an account, or by a failure unless
it did. -/
def RunOptions.Tells (options : RunOptions) : Prop :=
  options.full = true ∨ options.isStrict = true

/-- A run that gives this answer and, where it gives an account, calls it converged. -/
def Run.ConvergesTo (run : Run) (answer : Value) : Prop :=
  ∃ account, run.outcome = .ok ⟨answer, account⟩ ∧ ∀ a, account = some a → a.converged = true

theorem Solver.settleSystem_of_converged {single : Bool} {e : Ending (Grid Float)} {answer : Value}
    (he : e.converged = true) (hrestore : restore e.point single = .ok answer) :
    s.settleSystem options single e =
      .ok (s.conclude options answer true e.iterations e.evaluations) := by
  simp only [settleSystem, he, hrestore]
  rfl

theorem Solver.settleSystem_eq_ok {single converged : Bool} {e : Ending (Grid Float)}
    {answer : Value} {iterations evaluations : Nat} (hfull : options.full = true)
    (h : s.settleSystem options single e =
      .ok (s.conclude options answer converged iterations evaluations)) :
    restore e.point single = .ok answer ∧ e.converged = converged ∧ e.iterations = iterations ∧
      e.evaluations = evaluations := by
  unfold settleSystem at h
  split at h
  · cases h
  · obtain ⟨x, hx, h⟩ := exists_of_bind_eq_ok h
    have hc := Except.ok.inj h
    simp only [conclude, hfull, if_true, Solution.mk.injEq, Option.some.injEq,
      Account.mk.injEq] at hc
    obtain ⟨rfl, hconverged, hiterations, hevaluations, -⟩ := hc
    exact ⟨hx, hconverged, hiterations, hevaluations⟩

/-- The end of a run is that of its trace in another form, settled. -/
theorem Run.outcome_ofTrace {Point Site Detail Answer Result : Type} (line : Note Detail → String)
    (point : Point → Value) (place : Site → Value) (form : Answer → Result)
    (settle : Result → Except Failure Solution) (trace : Trace Point Site Detail Answer) :
    (Run.ofTrace line point place (fun e => settle (form e)) trace).outcome =
      (trace.outcome.map form).bind settle := by
  change trace.outcome.bind _ = _
  cases trace.outcome <;> rfl

/-- A run made of an ending converges exactly when that did, to its point in the form of the
start. -/
theorem Run.convergesTo_iff {single : Bool} {outcome : Except Failure (Ending (Grid Float))}
    (hsettled : run.outcome = outcome.bind (s.settleSystem options single))
    (htells : options.Tells) (answer : Value) :
    run.ConvergesTo answer ↔ ∃ e, outcome = .ok e ∧ e.converged = true ∧
      restore e.point single = .ok answer := by
  constructor
  · rintro ⟨account, ho, haccount⟩
    rw [hsettled] at ho
    obtain ⟨e, rfl, hsettle⟩ := exists_of_bind_eq_ok ho
    unfold Solver.settleSystem at hsettle
    split at hsettle
    · cases hsettle
    · rename_i hgoes
      obtain ⟨x, hx, hsettle⟩ := exists_of_bind_eq_ok hsettle
      cases hsettle
      refine ⟨e, rfl, ?_, hx⟩
      cases htells with
      | inl hfull => exact haccount ⟨e.converged, _, _, _⟩ (by rw [if_pos hfull])
      | inr hstrict => simpa [hstrict] using hgoes
  · rintro ⟨e, rfl, he, hrestore⟩
    refine ⟨(s.conclude options answer true e.iterations e.evaluations).account, ?_, ?_⟩
    · exact hsettled.trans (Solver.settleSystem_of_converged he hrestore)
    · intro a ha
      unfold Solver.conclude at ha
      dsimp only at ha
      split at ha
      · cases ha
        rfl
      · cases ha

/-- Where nothing is called and the run fails, it does not converge. -/
theorem Run.not_convergesTo {cause : Failure} (h : run.outcome = .error cause) (answer : Value) :
    ¬run.ConvergesTo answer := by
  rintro ⟨account, ho, -⟩
  cases h.symm.trans ho

/-- A start takes its form back at each point with as many components. -/
theorem Solver.Tests.exists_restore (h : s.Tests arguments c) {x : Grid Float}
    (hx : x.shape = [c.start.point.length]) : ∃ v, restore x c.start.single = .ok v := by
  obtain ⟨v, -, -, hstart, -⟩ := h.restart
  rw [Grid.eq_vector hx]
  refine RootFinding.exists_restore fun hsingle => ?_
  rw [Grid.length_of_shape hx, Start.length_of_single hstart hsingle]

/-- A search that starts where its function passes ends there after one call. -/
theorem Solver.Tests.run_of_pass (h : s.Tests arguments c) (hs : s.Displays)
    (hpass : c.PassesAt 0 (.vector c.start.point)) {answer : Value}
    (hrestore : restore (.vector c.start.point) c.start.single = .ok answer) :
    (s.run arguments none options).evaluations = #[.ofGrid (.vector c.start.point)] ∧
      (s.run arguments none options).outcome = .ok (s.conclude options answer true 0 1) := by
  obtain ⟨calls, outcome, hd⟩ := h.decides hs options
  obtain ⟨passes, rounds, hrounds, hfirst, hiff⟩ := hd.firstPass
  obtain ⟨rfl, rfl⟩ := hfirst.of_pass hd.first ((hiff 0 _ rfl).2 hpass)
  refine ⟨by simpa using hd.evaluations, ?_⟩
  rw [hd.settled, hrounds]
  exact settleSystem_of_converged rfl hrestore

/-- Searching again from the point of a call that passes, with a function without memory. -/
theorem Solver.Tests.run_again (h : s.Tests arguments c) (hs : s.Displays)
    (hf : c.value.Memoryless) {number : Nat} {x : Grid Float} {answer : Value}
    (hx : x.shape = [c.start.point.length]) (hpass : c.PassesAt number x)
    (hrestore : restore x c.start.single = .ok answer) :
    (s.run (answer :: arguments.tail) none options).evaluations = #[.ofGrid x] ∧
      (s.run (answer :: arguments.tail) none options).outcome =
        .ok (s.conclude options answer true 0 1) := by
  obtain ⟨v, tail, rfl, -, hrestart⟩ := h.restart
  rw [Grid.eq_vector hx] at hrestore hpass ⊢
  have hagain := hrestart answer ⟨x.entries, c.start.single⟩ (Start.ofValue_restore hrestore)
    (Grid.length_of_shape hx)
  refine hagain.run_of_pass hs ?_ hrestore
  obtain ⟨found, y, hfound, hy⟩ := hpass
  exact ⟨found, y, (hf ⟨.array (.vector x.entries), none, number⟩ 0).trans hfound, hy⟩

/-- Where the calls keep the shape of the start, they pass by the criterion. -/
theorem Criterion.Decides.exists_firstPass {calls : Array (Grid Float)}
    {outcome : Except Failure (Ending (Grid Float))} (h : c.Decides s options run calls outcome)
    (hkeeps : s.KeepsShape c.start.point.length run) :
    ∃ rounds, FirstPass c.PassesAt rounds 0 calls outcome := by
  obtain ⟨passes, rounds, -, hfirst, hiff⟩ := h.firstPass
  refine ⟨rounds, hfirst.congr fun i x hx => ?_⟩
  exact (hiff i x (h.shape hkeeps x (Array.mem_of_getElem? hx))).symm

/-- A solver that tests each of its calls converges exactly when a call passes: that call is its
last one, no earlier one passes, and its argument is the answer. With a function without memory it
gives that answer again from there, after one call. -/
theorem Solver.converges_at_first_pass (hc : s.criterion? arguments = some c)
    (htells : options.Tells) (hrun : s.run arguments none options = run)
    (hkeeps : s.KeepsShape c.start.point.length run) :
    ∃ calls : Array (Grid Float), run.evaluations = calls.map .ofGrid ∧
      (∀ x ∈ calls, x.shape = [c.start.point.length]) ∧
      ((∃ answer, run.ConvergesTo answer) ↔ ∃ i x, calls[i]? = some x ∧ c.PassesAt i x) ∧
      ∀ answer, run.ConvergesTo answer → ∃ (earlier : Array (Grid Float)) (x : Grid Float),
        calls = earlier.push x ∧ c.PassesAt earlier.size x ∧
        (∀ i y, earlier[i]? = some y → ¬c.PassesAt i y) ∧
        restore x c.start.single = .ok answer ∧
        (c.value.Memoryless →
          (s.run (answer :: arguments.tail) none options).evaluations = #[.ofGrid x] ∧
          (s.run (answer :: arguments.tail) none options).outcome =
            .ok (s.conclude options answer true 0 1)) := by
  subst hrun
  have ht := tests_of_criterion? hc
  rcases s.displays_or with hs | ⟨cause, hd⟩
  · obtain ⟨calls, outcome, hd⟩ := ht.decides hs options
    have hshape := hd.shape hkeeps
    have hconv := Run.convergesTo_iff hd.settled htells
    obtain ⟨rounds, hfirst⟩ := hd.exists_firstPass hkeeps
    refine ⟨calls, hd.evaluations, hshape, ?_⟩
    cases hfirst with
    | @passed earlier x hcalls hpass hbefore ho =>
      subst hcalls
      have hxshape := hshape x (by simp)
      refine ⟨iff_of_true ?_ ⟨earlier.size, x, by simp, hpass⟩, fun answer hanswer => ?_⟩
      · obtain ⟨answer, hanswer⟩ := ht.exists_restore hxshape
        exact ⟨answer, (hconv answer).2 ⟨_, ho, rfl, hanswer⟩⟩
      · obtain ⟨e, he, -, hrestore⟩ := (hconv answer).1 hanswer
        cases ho.symm.trans he
        exact ⟨earlier, x, rfl, hpass, fun i y => hbefore i y (Nat.zero_le i), hrestore,
          fun hf => ht.run_again hs hf hxshape hpass hrestore⟩
    | unpassed hall ho =>
      have hnot : ∀ answer, ¬(s.run arguments none options).ConvergesTo answer := by
        intro answer hanswer
        obtain ⟨e, he, hconverged, -⟩ := (hconv answer).1 hanswer
        rw [(ho e he).1] at hconverged
        cases hconverged
      refine ⟨iff_of_false (fun ⟨answer, h⟩ => hnot answer h) ?_,
        fun answer h => (hnot answer h).elim⟩
      rintro ⟨i, x, hx, hpass⟩
      exact hall i x (Nat.zero_le i) hx hpass
  · obtain ⟨hevals, ho⟩ := ht.mute hd options
    have hnot := Run.not_convergesTo ho
    exact ⟨#[], by simpa using hevals, by simp,
      iff_of_false (fun ⟨answer, h⟩ => hnot answer h) (by simp),
      fun answer h => (hnot answer h).elim⟩

def Run.isConverged (run : Run) : Bool :=
  match run.outcome with
  | .ok ⟨_, some account⟩ => account.converged
  | _ => false

theorem Run.exists_convergesTo (h : run.isConverged = true) :
    ∃ answer, run.ConvergesTo answer := by
  unfold isConverged at h
  split at h
  · rename_i answer account ho
    refine ⟨answer, some account, ho, ?_⟩
    rintro _ ⟨⟩
    exact h
  · cases h

def halfAndOne : Function := fun call =>
  match call.argument with
  | .array a => .ok (.value (.array (a.map fun x => x / 2 + 1)))
  | .number _ => .error .wrongKind

/-- A search by Steffensen's method for the number that is one more than its half, with an
account. -/
def halfAndOneRun (x : Value) : Run :=
  Solver.run ⟨.steffensen halfAndOne, ⟨5, by decide⟩, .int 0⟩ [x, .ofFloat 1e-9, .ofFloat 0] none
    { full := true }

/-- From one it converges to an answer that it gives again. -/
theorem converges_at_first_pass_halfAndOne :
    ∃ answer, (halfAndOneRun (.ofFloat 1)).ConvergesTo answer ∧
      (halfAndOneRun answer).outcome = .ok ⟨answer, some ⟨true, 0, 1, "Steffensen's Method"⟩⟩ := by
  have hc : Solver.criterion? ⟨.steffensen halfAndOne, ⟨5, by decide⟩, .int 0⟩
      [.ofFloat 1, .ofFloat 1e-9, .ofFloat 0] = some ⟨halfAndOne, ⟨[1], true⟩,
        fun x y => Tolerance.within [⟨1e-9, 0⟩] y x⟩ := rfl
  have htells : RunOptions.Tells { full := true } := .inl rfl
  have hrun : _ = halfAndOneRun (.ofFloat 1) := rfl
  obtain ⟨calls, -, -, -, hends⟩ := Solver.converges_at_first_pass hc htells hrun nofun
  obtain ⟨answer, hanswer⟩ := Run.exists_convergesTo
    (by decide +kernel : (halfAndOneRun (.ofFloat 1)).isConverged = true)
  obtain ⟨earlier, x, -, -, -, -, hagain⟩ := hends answer hanswer
  exact ⟨answer, hanswer, (hagain fun _ _ => rfl).2⟩

end RootFinding
