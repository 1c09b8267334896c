import RootFinding.Proofs.Bracketing.Exhausted
import RootFinding.Proofs.Number.Rounding

/-!
# Refused endpoints

A search refuses its endpoints where the product of the two values is positive. Since the product
is rounded, this means that the values have the same strict sign and that their product is not too
small for a double. So two values of one sign are taken as a bracket where their product vanishes,
and undefined values always are.
-/
namespace RootFinding.Brent
open Number Double

variable {value : Nat → Double → Double} {tol lower upper x y : Double} {limit : Nat}
  {shows : Note (Double × Double) → Except Failure Bool}

theorem productPositive_iff :
    Reading.productPositive Double x y = .ok true ↔ Alike x y ∧ ¬Vanishing x y := by
  have hpos : Reading.productPositive Double x y = .ok (decide (0 < x * y)) := rfl
  rw [hpos, Except.ok.injEq, decide_eq_true_iff, pos_mul_iff]
  rfl

/-- A search refuses its endpoints or ends otherwise: at a stage, or over a note. -/
theorem run_search_sameSign_iff (hshows : ∀ note, shows note ≠ .error .sameSign) :
    ((search limit tol lower upper).run (answering value shows)).outcome = .error .sameSign ↔
      Reading.productPositive Double (value 0 lower) (value 1 upper) = .ok true := by
  constructor
  · intro h
    have hrun : (search limit tol lower upper).run (answering value shows) = _ := rfl
    rcases concluded_search hrun with ⟨-, -, ho, -⟩ | ⟨hpos, -⟩ | ⟨hs, ho⟩
    · cases h.symm.trans ho
    · exact hpos
    · cases h.symm.trans ho
      exact absurd hs (hshows _)
  · exact run_search_sameSign

variable {s : Solver} {options : RunOptions} {t : RootTolerance} {f : Function} {v w : Value}

theorem settleBracket_ne_sameSign (ending : Ending Double Quantity) :
    s.settleBracket options ending ≠ .error .sameSign := by
  cases ending <;> simp [Solver.settleBracket]

theorem bind_settleBracket_eq_sameSign_iff (outcome : Except Failure (Ending Double Double)) :
    (outcome.map Ending.lift).bind (s.settleBracket options) = .error .sameSign ↔
      outcome = .error .sameSign := by
  cases outcome with
  | ok ending =>
    apply iff_of_false
    · exact settleBracket_ne_sameSign _
    · simp
  | error cause => simp [Except.map, Except.bind]

/-- A solver refuses two points exactly where the values there have the same strict sign and their
product does not vanish. It has called the function at these points only then, and has printed
nothing. -/
theorem refused_iff {run : Run} (hrun : s.runBracket options t f v w = run)
    (hf : AnswersReals f run) (hl : v.toDouble = .ok lower) (hu : w.toDouble = .ok upper) :
    (run.outcome = .error .sameSign ↔
      Alike (doubleAnswer f 0 lower) (doubleAnswer f 1 upper) ∧
        ¬Vanishing (doubleAnswer f 0 lower) (doubleAnswer f 1 upper)) ∧
    (run.outcome = .error .sameSign →
      run.evaluations = #[.real lower, .real upper] ∧ run.slopes = #[] ∧ run.printed = "") := by
  have hshows (note : Note (Double × Double)) :
      Progress.shows s.display note ≠ .error .sameSign := by
    intro h
    cases Progress.shows_error h
  have heq := runBracket_of_reals (hrun ▸ hf) hl hu
  rw [hrun] at heq
  subst heq
  have hiff : ((search s.limit.count (.ofFloat t.value) lower upper).run
      (answering (doubleAnswer f) (Progress.shows s.display))).outcome = .error .sameSign ↔ _ :=
    run_search_sameSign_iff hshows
  constructor
  · rw [← productPositive_iff, ← hiff]
    exact bind_settleBracket_eq_sameSign_iff _
  · intro h
    have hpos := hiff.1 ((bind_settleBracket_eq_sameSign_iff _).1 h)
    rw [run_search_refused hpos]
    simp [liftTrace, Run.ofTrace]

def isRefused (run : Run) : Bool :=
  match run.outcome with
  | .error .sameSign => true
  | _ => false

theorem outcome_of_isRefused {run : Run} (h : isRefused run = true) :
    run.outcome = .error .sameSign := by
  unfold isRefused at h
  split at h
  · assumption
  · cases h

/-- The square of a number less two is positive at two and at three. -/
theorem refused_iff_square :
    ∃ run, Solver.runBracket ⟨.brent halfTolerance, ⟨3, by decide⟩, .int 0⟩ {} halfTolerance
        squareLessTwo (.int 2) (.int 3) = run ∧
      run.outcome = .error .sameSign ∧
      (Alike (doubleAnswer squareLessTwo 0 2) (doubleAnswer squareLessTwo 1 3) ∧
        ¬Vanishing (doubleAnswer squareLessTwo 0 2) (doubleAnswer squareLessTwo 1 3)) ∧
      run.evaluations = #[.real 2, .real 3] ∧ run.slopes = #[] ∧ run.printed = "" := by
  have hf : AnswersReals squareLessTwo (Solver.runBracket ⟨.brent halfTolerance, ⟨3, by decide⟩,
      .int 0⟩ {} halfTolerance squareLessTwo (.int 2) (.int 3)) := fun _ x _ => ⟨x * x - 2, rfl⟩
  obtain ⟨hiff, hcalls⟩ := refused_iff rfl hf (rfl : (Value.int 2).toDouble = .ok 2)
    (rfl : (Value.int 3).toDouble = .ok 3)
  have hrefused : isRefused (Solver.runBracket ⟨.brent halfTolerance, ⟨3, by decide⟩, .int 0⟩ {}
      halfTolerance squareLessTwo (.int 2) (.int 3)) = true := by
    decide +kernel
  have ho := outcome_of_isRefused hrefused
  exact ⟨_, rfl, ho, hiff.1 ho, hcalls ho⟩

/-- A function that is so small everywhere that the product of two values vanishes. -/
def tiny : Function := fun _ => .ok (.value (.real (.ofFloat 1e-200)))

/-- The points zero and one are taken as a bracket although the function is positive there, and a
root is returned. -/
theorem tiny_accepted :
    Alike (doubleAnswer tiny 0 0) (doubleAnswer tiny 1 1) ∧
      (Solver.runBracket ⟨.brent fineTolerance, ⟨100, by decide⟩, .int 0⟩ {} fineTolerance tiny
        (.int 0) (.int 1)).outcome.isOk = true := by
  constructor
  · right
    decide +kernel
  · decide +kernel

end RootFinding.Brent
