import RootFinding.Proofs.Bracketing.Passes
import RootFinding.Proofs.Number.Order
import RootFinding.Proofs.Runs
import RootFinding.Session.Run

/-!
# Bracketing searches on doubles

A solver keeps the integers and truth values that a caller may answer. Where every answer is a
double, its search makes the same run as one that reads doubles only.
-/
namespace RootFinding.Brent
open Number

def Points.lift (s : Points Double Double) : Points Double Quantity :=
  { a := s.a, fa := .real s.fa, b := s.b, fb := .real s.fb, c := s.c, fc := .real s.fc,
    d := s.d, e := s.e }

def Ending.lift : Ending Double Double → Ending Double Quantity
  | .root x iterations => .root x iterations
  | .exhausted a b fa fb iterations => .exhausted a b (.real fa) (.real fb) iterations

def liftNote : Note (Double × Double) → Note (Double × Quantity)
  | .heading equations => .heading equations
  | .iteration number (x, fx) => .iteration number (x, .real fx)
  | .converged => .converged
  | .exhausted => .exhausted

def liftTrace (t : Trace Double Empty (Double × Double) (Ending Double Double)) :
    Trace Double Empty (Double × Quantity) (Ending Double Quantity) where
  evaluations := t.evaluations
  slopes := t.slopes
  notes := t.notes.map liftNote
  outcome := t.outcome.map Ending.lift

theorem ordered_lift (s : Points Double Double) :
    s.lift.ordered Value = (s.ordered Double).lift := by
  unfold Points.ordered
  change (if (s.fc.abs < s.fb.abs : Bool) then _ else _) =
    Points.lift (if (s.fc.abs < s.fb.abs : Bool) then _ else _)
  split <;> rfl

theorem isClosed_lift (tol : Double) (s : Points Double Double) :
    isClosed Value tol s.lift = isClosed Double tol s := rfl

theorem chooseStep_lift (tol : Double) (s : Points Double Double) :
    chooseStep Value tol s.lift = chooseStep Double tol s := rfl

theorem settle_lift (s : Points Double Double) (x fx d e : Double) :
    settle Value s.lift x (.real fx) d e = (settle Double s x fx d e).map Points.lift := by
  obtain ⟨s', hs⟩ := settle_ok s x fx d e
  rw [hs]
  obtain ⟨same, hsame, rfl⟩ := settle_eq_ok_iff.1 hs
  have hq : Reading.sameSide Value (.real fx) (s.lift.fc) = .ok same := hsame
  unfold settle
  rw [hq]
  cases same <;> rfl

variable {value : Nat → Double → Double} {evals : Array Double} {slopes : Array Empty}
  {notes : Array (Note (Double × Double))} {tol lower upper : Double}
  {caller : Caller Double Value Empty Empty (Double × Quantity)}

def plain (value : Nat → Double → Double)
    (caller : Caller Double Value Empty Empty (Double × Quantity)) :
    Caller Double Double Empty Empty (Double × Double) :=
  answering value fun note => caller.shows (liftNote note)

theorem runFrom_report_lift (note : Note (Double × Double))
    {next : Searching Double Double Double} {next' : Searching Value Quantity Double}
    (h : ∀ notes, Search.runFrom caller evals slopes (notes.map liftNote) next' =
      liftTrace (Search.runFrom (plain value caller) evals slopes notes next)) :
    Search.runFrom caller evals slopes (notes.map liftNote) (.report (liftNote note) next') =
      liftTrace (Search.runFrom (plain value caller) evals slopes notes (.report note next)) := by
  have hs : (plain value caller).shows note = caller.shows (liftNote note) := rfl
  rw [Search.runFrom, Search.runFrom, hs]
  cases caller.shows (liftNote note) with
  | error cause => rfl
  | ok shown =>
    cases shown with
    | false => exact h notes
    | true =>
      have := h (notes.push note)
      rwa [Array.map_push] at this

theorem runFrom_evaluate_lift (hv : ∀ n x, caller.value n x = .ok (.real (value n x)))
    (x : Double) {next : Double → Searching Double Double Double}
    {next' : Value → Searching Value Quantity Double}
    (h : Search.runFrom caller (evals.push x) slopes (notes.map liftNote)
        (next' (.real (value evals.size x))) =
      liftTrace (Search.runFrom (plain value caller) (evals.push x) slopes notes
        (next (value evals.size x)))) :
    Search.runFrom caller evals slopes (notes.map liftNote) (.evaluate x next') =
      liftTrace (Search.runFrom (plain value caller) evals slopes notes (.evaluate x next)) := by
  rw [Search.runFrom, hv]
  exact h

theorem runFrom_iterate_lift (hv : ∀ n x, caller.value n x = .ok (.real (value n x)))
    (left done : Nat) (s : Points Double Double) :
    Search.runFrom caller evals slopes (notes.map liftNote)
        (iterate tol left done s.lift : Searching Value Quantity Double) =
      liftTrace (Search.runFrom (plain value caller) evals slopes notes
        (iterate tol left done s)) := by
  induction left generalizing done s evals notes with
  | zero =>
    rw [iterate, iterate, ordered_lift]
    exact runFrom_report_lift .exhausted fun _ => rfl
  | succ left ih =>
    rw [iterate, iterate, ordered_lift]
    dsimp only
    rw [isClosed_lift, chooseStep_lift]
    cases isClosed Double tol (s.ordered Double) with
    | true =>
      rw [if_pos rfl, if_pos rfl]
      exact runFrom_report_lift .converged fun _ => rfl
    | false =>
      obtain ⟨d, e, hd⟩ := chooseStep_ok tol (s.ordered Double)
      rw [if_neg Bool.false_ne_true, if_neg Bool.false_ne_true, hd, Search.attempt_ok,
        Search.attempt_ok]
      refine runFrom_evaluate_lift hv (advance tol (s.ordered Double) d) ?_
      refine runFrom_report_lift (.iteration (done + 1) (advance tol (s.ordered Double) d,
        value evals.size (advance tol (s.ordered Double) d))) fun notes' => ?_
      obtain ⟨s', hs⟩ := settle_ok (s.ordered Double) (advance tol (s.ordered Double) d)
        (value evals.size (advance tol (s.ordered Double) d)) d e
      have hs' := settle_lift (s.ordered Double) (advance tol (s.ordered Double) d)
        (value evals.size (advance tol (s.ordered Double) d)) d e
      rw [hs] at hs'
      change Search.runFrom _ _ _ _ (Search.attempt (settle Value (s.ordered Double).lift
        (advance tol (s.ordered Double) d) (.real _) d e) _) = liftTrace (Search.runFrom _ _ _ _
          (Search.attempt (settle Double (s.ordered Double) _ _ d e) _))
      rw [hs', hs]
      exact ih (done + 1) s'

/-- Where every answer is a double, it makes no difference that other numbers could be read. -/
theorem run_search_lift (hv : ∀ n x, caller.value n x = .ok (.real (value n x))) (limit : Nat) :
    (search limit tol lower upper : Searching Value Quantity Double).run caller =
      liftTrace ((search limit tol lower upper).run (plain value caller)) := by
  have hnone : Array.map liftNote #[] = #[] := Array.map_empty
  unfold Search.run
  rw [← hnone]
  refine runFrom_evaluate_lift hv lower ?_
  refine runFrom_evaluate_lift hv upper ?_
  obtain ⟨same, hsame⟩ := PlainReading.productPositive_ok (value 0 lower) (value 1 upper)
  have hsame' : Reading.productPositive Value (.real (value 0 lower)) (.real (value 1 upper)) =
    .ok same := hsame
  have hends : Reading.ends (Value.real (value 0 lower)) (Value.real (value 1 upper)) =
    .ok (Quantity.real (value 0 lower), Quantity.real (value 1 upper)) := rfl
  change Search.runFrom _ _ _ _ (Search.attempt (Reading.ends (Value.real (value 0 lower))
    (Value.real (value 1 upper))) _) = liftTrace (Search.runFrom _ _ _ _
      (Search.attempt (Reading.ends (value 0 lower) (value 1 upper)) _))
  rw [hends, PlainReading.ends_eq, Search.attempt_ok, Search.attempt_ok]
  dsimp only
  rw [hsame', hsame, Search.attempt_ok, Search.attempt_ok]
  cases same with
  | true => rfl
  | false =>
    refine runFrom_report_lift (.heading none) fun notes => ?_
    exact runFrom_iterate_lift hv (limit + 1) 0
      (.start lower upper (value 0 lower) (value 1 upper))

def doubleAnswer (f : Function) (number : Nat) (x : Double) : Double :=
  match f { argument := .number x, number } with
  | .ok (.value (.real y)) => y
  | _ => 0

/-- The calls of a run were answered with doubles, which may be undefined. -/
def AnswersReals (f : Function) (run : Run) : Prop :=
  ∀ i x, run.evaluations[i]? = some (.real x) →
    ∃ y : Double, f { argument := .number x, number := i } = .ok (.value (.real y))

theorem AnswersReals.answer {f : Function} {run : Run} (hf : AnswersReals f run) {i : Nat}
    {x : Double} (hx : run.evaluations[i]? = some (.real x)) :
    f { argument := .number x, number := i } = .ok (.value (.real (doubleAnswer f i x))) := by
  obtain ⟨y, hfx⟩ := hf i x hx
  rw [doubleAnswer, hfx]

def AnswersDoubles (f : Function) (run : Run) : Prop :=
  ∀ i x, run.evaluations[i]? = some (.real x) →
    ∃ y : Double, y.Defined ∧ f { argument := .number x, number := i } = .ok (.value (.real y))

theorem AnswersDoubles.reals {f : Function} {run : Run} (hf : AnswersDoubles f run) :
    AnswersReals f run := by
  intro i x hx
  obtain ⟨y, -, hfx⟩ := hf i x hx
  exact ⟨y, hfx⟩

theorem AnswersDoubles.answer {f : Function} {run : Run} (hf : AnswersDoubles f run) {i : Nat}
    {x : Double} (hx : run.evaluations[i]? = some (.real x)) :
    (doubleAnswer f i x).Defined ∧
      f { argument := .number x, number := i } = .ok (.value (.real (doubleAnswer f i x))) := by
  obtain ⟨y, hy, hfx⟩ := hf i x hx
  have hd : doubleAnswer f i x = y := by
    unfold doubleAnswer
    rw [hfx]
  rw [hd]
  exact ⟨hy, hfx⟩

def bracketCaller (s : Solver) (f : Function) :
    Caller Double Value Empty Empty (Double × Quantity) where
  value number x := do return (← f { argument := .number x, number }).toReading
  slope _ := Empty.elim
  shows := Progress.shows s.display

def doubleCaller (s : Solver) (f : Function) :
    Caller Double Value Empty Empty (Double × Quantity) :=
  { bracketCaller s f with value := fun number x => .ok (.real (doubleAnswer f number x)) }

theorem run_bracketCaller {s : Solver} {f : Function} (tree : Searching Value Quantity Double)
    (h : ∀ i x, (tree.run (bracketCaller s f)).evaluations[i]? = some x →
      f { argument := .number x, number := i } = .ok (.value (.real (doubleAnswer f i x)))) :
    tree.run (bracketCaller s f) = tree.run (doubleCaller s f) := by
  have hslope : (bracketCaller s f).slope = (doubleCaller s f).slope := rfl
  have hshows : (bracketCaller s f).shows = (doubleCaller s f).shows := rfl
  refine Search.run_congr hslope hshows tree fun i x hx => ?_
  change (do return (← f { argument := .number x, number := i }).toReading) = _
  rw [h i x hx]
  rfl

theorem shows_liftNote (display : Value) (note : Note (Double × Double)) :
    Progress.shows display (liftNote note) = Progress.shows display note := by
  cases note <;> rfl

variable {s : Solver} {options : RunOptions} {t : RootTolerance} {f : Function} {v w : Value}

theorem runBracket_of_bounds (hl : v.toDouble = .ok lower) (hu : w.toDouble = .ok upper) :
    s.runBracket options t f v w =
      .ofTrace (Progress.line s.method.name Progress.bracketDetail) .real Empty.elim
        (s.settleBracket options)
        ((search s.limit.count (.ofFloat t.value) lower upper : Searching Value Quantity Double).run
          (bracketCaller s f)) := by
  unfold Solver.runBracket
  rw [hl, hu]
  rfl

/-- What a solver does with a function whose answers are doubles. -/
theorem runBracket_of_reals (hf : AnswersReals f (s.runBracket options t f v w))
    (hl : v.toDouble = .ok lower) (hu : w.toDouble = .ok upper) :
    s.runBracket options t f v w =
      .ofTrace (Progress.line s.method.name Progress.bracketDetail) .real Empty.elim
        (s.settleBracket options)
        (liftTrace ((search s.limit.count (.ofFloat t.value) lower upper).run
          (answering (doubleAnswer f) (Progress.shows s.display)))) := by
  have hshows : (fun note => Progress.shows s.display (liftNote note)) =
      Progress.shows s.display := by
    funext note
    exact shows_liftNote s.display note
  rw [runBracket_of_bounds hl hu] at hf ⊢
  refine congrArg (Run.ofTrace _ _ _ _) ?_
  have hv : ∀ n x, (doubleCaller s f).value n x = .ok (.real (doubleAnswer f n x)) :=
    fun _ _ => rfl
  rw [run_bracketCaller]
  · rw [run_search_lift hv]
    change liftTrace (Search.run (answering _ fun note =>
      Progress.shows s.display (liftNote note)) _) = _
    rw [hshows]
  · intro i x hx
    refine hf.answer ?_
    change (Array.map Value.real _)[i]? = _
    rw [Array.getElem?_map, hx]
    rfl

theorem exists_trace_of_reals {run : Run} (hrun : s.runBracket options t f v w = run)
    (hf : AnswersReals f run) (hl : v.toDouble = .ok lower) (hu : w.toDouble = .ok upper) :
    ∃ trace, (search s.limit.count (.ofFloat t.value) lower upper).run
        (answering (doubleAnswer f) (Progress.shows s.display)) = trace ∧
      run.outcome = (trace.outcome.map Ending.lift).bind (s.settleBracket options) ∧
      run.evaluations = trace.evaluations.map .real := by
  subst hrun
  refine ⟨_, rfl, ?_, ?_⟩
  · rw [runBracket_of_reals hf hl hu]
    rfl
  · rw [runBracket_of_reals hf hl hu]
    rfl

theorem exists_trace {run : Run} (hrun : s.runBracket options t f v w = run)
    (hf : AnswersDoubles f run) (hl : v.toDouble = .ok lower) (hu : w.toDouble = .ok upper) :
    ∃ trace, (search s.limit.count (.ofFloat t.value) lower upper).run
        (answering (doubleAnswer f) (Progress.shows s.display)) = trace ∧
      run.outcome = (trace.outcome.map Ending.lift).bind (s.settleBracket options) ∧
      run.evaluations = trace.evaluations.map .real :=
  exists_trace_of_reals hrun hf.reals hl hu

end RootFinding.Brent
