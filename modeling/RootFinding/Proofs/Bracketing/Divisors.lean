import RootFinding.Proofs.Bracketing.Enclosure
import RootFinding.Proofs.Bracketing.Strides
import RootFinding.Proofs.Bracketing.Symmetric

/-!
# The divisors of a bracketing search

No divisor is tested before it is divided by. The previous value is no divisor unless it is larger
than the best one, the far value is none before a best value of zero ended the search, and the
denominator of a step is none unless the numerator is below a multiple of it. None of them is zero,
so a search that fails at the first division by zero makes the same run.
-/
namespace RootFinding.Number.Double
open Float.Model (UnpackedFloat)
open Float.Model.UnpackedFloat hiding abs neg
variable {x y z : Double}

theorem not_abs_lt_zero (hy : (y == 0) = true) : ¬x.abs < y.abs := by
  intro h
  obtain ⟨t, ht⟩ := compare_zero_of_eq (zero_iff.1 hy)
  have hc := (lt_iff_compare ..).1 h
  rw [abs_value, abs_value, parts_abs, parts_abs, ht] at hc
  cases hp : parts x.value <;> rw [hp] at hc <;> cases hc

theorem parts_mul_zero (hz : (z == 0) = true) (y : Double) :
    (parts (y * z).value).abs = .zero .positive ∨ (parts (y * z).value).abs = .notANumber := by
  obtain ⟨t, ht⟩ := compare_zero_of_eq (zero_iff.1 hz)
  have hparts : parts (y * z).value =
      unpack .binary64 (pack .binary64 (mul .binary64 (parts y.value) (.zero t))) := by
    rw [mul_value, ← ht]
    rfl
  rw [hparts]
  cases parts y.value with
  | notANumber | infinity s =>
    right
    exact congrArg UnpackedFloat.abs unpack_pack_notANumber
  | zero s | finite s =>
    left
    exact congrArg UnpackedFloat.abs (unpack_pack_zero _)

/-- Only negative numbers are below the magnitude of a multiple of zero. -/
theorem neg_of_lt_abs_mul_zero (hz : (z == 0) = true) (h : x < (y * z).abs) : x < 0 := by
  have hc := (lt_iff_compare ..).1 h
  rw [abs_value, parts_abs] at hc
  rcases parts_mul_zero hz y with hzero | hnan
  · rw [hzero] at hc
    exact neg_iff.2 hc
  · rw [hnan] at hc
    cases hp : parts x.value <;> rw [hp] at hc <;> cases hc

end RootFinding.Number.Double

namespace RootFinding.Brent
open Number Double
variable {tol : Double} {p : Points Double Double}

def attempts (tol : Double) (p : Points Double Double) : Bool :=
  resolution tol p ≤ p.e.abs && Reading.smaller Double p.fb p.fa

/-- What a pass divides by: the previous value, for a parabola the far value as well, and the
denominator of a step that is accepted. -/
inductive Divides (tol : Double) (p : Points Double Double) : Double → Prop
  | secant (h : attempts tol p = true) : Divides tol p p.fa
  | parabola (h : attempts tol p = true) (hac : (p.a == p.c) = false) : Divides tol p p.fc
  | step {pq : Double × Double} (h : attempts tol p = true)
    (hpq : interpolation Double p = .ok pq)
    (ha : acceptable (resolution tol p) (halfGap p) p.e (oriented pq) = true) :
    Divides tol p (oriented pq).2

theorem attempts_iff :
    attempts tol p = true ↔ resolution tol p ≤ p.e.abs ∧ p.fb.abs < p.fa.abs := by
  unfold attempts
  rw [Bool.and_eq_true]
  exact and_congr decide_eq_true_iff decide_eq_true_iff

/-- Where the far value is not the smaller one and the search goes on, no divisor is zero. -/
theorem Divides.ne_zero {q : Double} (h : Divides tol p q) (hfar : ¬p.fc.abs < p.fb.abs)
    (hopen : isClosed Double tol p = false) : (q == 0) = false := by
  rw [Bool.eq_false_iff]
  intro hq
  cases h with
  | secant h => exact not_abs_lt_zero hq (attempts_iff.1 h).2
  | parabola h hac =>
    have hdefined : p.fb.Defined := defined_of_abs (defined_of_lt (attempts_iff.1 h).2).1
    have hzero : ¬(p.fb == 0) = true :=
      Bool.eq_false_iff.1 (Indistinct.isZero_of_open (Bool.eq_false_iff.1 hopen))
    exact hfar (abs_lt_abs_of_zero hq hdefined hzero)
  | step h hpq ha =>
    rw [acceptable, Bool.and_eq_true] at ha
    exact not_oriented_neg _ (neg_of_lt_abs_mul_zero hq (of_decide_eq_true ha.2))

theorem not_smaller_ordered (s : Points Double Double) :
    ¬(s.ordered Double).fc.abs < (s.ordered Double).fb.abs := by
  unfold Points.ordered
  split
  · rename_i h
    exact not_lt_of_lt (of_decide_eq_true h)
  · rename_i h
    exact fun hlt => h (decide_eq_true hlt)

def checkedQuotient (x y : Double) : Except Failure Double :=
  if y == 0 then .error (.raised "float division by zero") else .ok (x / y)

def checkedInterpolation (p : Points Double Double) : Except Failure (Double × Double) := do
  let xm := halfGap p
  let s ← checkedQuotient p.fb p.fa
  if p.a == p.c then
    return (2 * xm * s, 1 - s)
  else
    let q ← checkedQuotient p.fa p.fc
    let r ← checkedQuotient p.fb p.fc
    return (s * (2 * xm * q * (q - r) - (p.b - p.a) * (r - 1)), (q - 1) * (r - 1) * (s - 1))

def checkedStep (tol : Double) (p : Points Double Double) : Except Failure (Double × Double) := do
  let xm := halfGap p
  if attempts tol p then
    let pq := oriented (← checkedInterpolation p)
    if acceptable (resolution tol p) xm p.e pq then
      return (← checkedQuotient pq.1 pq.2, p.d)
    else return (xm, xm)
  else return (xm, xm)

def checkedIterate (tol : Double) :
    (left done : Nat) → Points Double Double → Searching Double Double Double
  | 0, done, s =>
    let s := s.ordered Double
    .report .exhausted (.done (.exhausted s.a s.b s.fa s.fb done))
  | left + 1, done, s =>
    let s := s.ordered Double
    if isClosed Double tol s then .report .converged (.done (.root s.b done))
    else
      .attempt (checkedStep tol s) fun (d, e) =>
        let x := advance tol s d
        .evaluate x fun fx =>
          .report (.iteration (done + 1) (x, fx)) <|
            .attempt (settle Double s x fx d e) fun s => checkedIterate tol left (done + 1) s

def checkedSearch (limit : Nat) (tol lower upper : Double) : Searching Double Double Double :=
  .evaluate lower fun fa => .evaluate upper fun fb =>
    if 0 < fa * fb then .fail .sameSign
    else .report (.heading none) (checkedIterate tol (limit + 1) 0 (.start lower upper fa fb))

theorem checkedQuotient_eq {x y : Double} (h : (y == 0) = false) :
    checkedQuotient x y = .ok (x / y) := by
  rw [checkedQuotient, h, if_neg Bool.false_ne_true]

theorem checkedInterpolation_eq (ha : attempts tol p = true)
    (h : ∀ q, Divides tol p q → (q == 0) = false) :
    checkedInterpolation p = interpolation Double p := by
  unfold checkedInterpolation interpolation
  rw [checkedQuotient_eq (h _ (.secant ha))]
  cases hac : p.a == p.c with
  | true => rfl
  | false =>
    rw [checkedQuotient_eq (h _ (.parabola ha hac)), checkedQuotient_eq (h _ (.parabola ha hac))]
    rfl

/-- Nothing else is divided by: where these divisors are not zero, no quotient fails. -/
theorem checkedStep_eq (h : ∀ q, Divides tol p q → (q == 0) = false) :
    checkedStep tol p = chooseStep Double tol p := by
  have hpq := interpolation_eq p
  generalize stepBy p (p.fb / p.fa) (p.fa / p.fc) (p.fb / p.fc) = pq at hpq
  rw [chooseStep_eq tol hpq]
  unfold checkedStep
  by_cases ha : attempts tol p = true
  · have hattempts := attempts_iff.1 ha
    rw [if_pos ha, checkedInterpolation_eq ha h, hpq]
    by_cases hacc : acceptable (resolution tol p) (halfGap p) p.e (oriented pq) = true
    · have hquotient := checkedQuotient_eq (h _ (.step ha hpq hacc)) (x := (oriented pq).1)
      rw [if_pos ⟨hattempts.1, hattempts.2, hacc⟩]
      change (if acceptable _ _ _ (oriented pq) = true then _ else _) = _
      rw [if_pos hacc, hquotient]
      rfl
    · rw [if_neg fun hall => hacc hall.2.2]
      change (if acceptable _ _ _ (oriented pq) = true then _ else _) = _
      rw [if_neg hacc]
      rfl
  · rw [if_neg ha, if_neg fun hall => ha (attempts_iff.2 ⟨hall.1, hall.2.1⟩)]
    rfl

theorem checkedIterate_eq (tol : Double) (left done : Nat) (s : Points Double Double) :
    checkedIterate tol left done s = iterate tol left done s := by
  induction left generalizing done s with
  | zero => rfl
  | succ left ih =>
    rw [checkedIterate, iterate]
    dsimp only
    by_cases hclosed : isClosed Double tol (s.ordered Double) = true
    · rw [if_pos hclosed, if_pos hclosed]
    · rw [if_neg hclosed, if_neg hclosed]
      rw [checkedStep_eq fun q hq =>
        hq.ne_zero (not_smaller_ordered s) (Bool.eq_false_iff.2 hclosed)]
      congr
      funext step
      obtain ⟨d, e⟩ := step
      simp only [ih, PlainReading.accept_eq, Search.attempt_ok]

theorem checkedSearch_eq (limit : Nat) (tol lower upper : Double) :
    checkedSearch limit tol lower upper = search limit tol lower upper := by
  unfold checkedSearch search
  congr
  funext fa
  congr
  funext fb
  rw [checkedIterate_eq, PlainReading.ends_eq, Search.attempt_ok]
  change _ = if decide (0 < fa * fb) = true then _ else _
  simp only [decide_eq_true_iff]

/-- A solver's run with checked quotients, of a function that answers doubles. -/
def checkedRun (s : Solver) (options : RunOptions) (t : RootTolerance) (f : Function)
    (lower upper : Double) : Run :=
  .ofTrace (Progress.line s.method.name Progress.bracketDetail) .real Empty.elim
    (s.settleBracket options)
    (liftTrace ((checkedSearch s.limit.count (.ofFloat t.value) lower upper).run
      (answering (doubleAnswer f) (Progress.shows s.display))))

/-- No divisor of a pass is zero, whatever doubles the function answers, undefined, infinite and
signed zeros included. So no quotient of a solver's run fails. -/
theorem never_divides_by_zero {s : Solver} {options : RunOptions} {t : RootTolerance} {f : Function}
    {v w : Value} {lower upper : Double} {run : Run} (hrun : s.runBracket options t f v w = run)
    (hf : AnswersReals f run) (hl : v.toDouble = .ok lower) (hu : w.toDouble = .ok upper) :
    (∀ done calls p, Reached (doubleAnswer f) (.ofFloat t.value) lower upper done calls p →
      isClosed Double (.ofFloat t.value) p = false →
      ∀ q, Divides (.ofFloat t.value) p q → (q == 0) = false) ∧
    run = checkedRun s options t f lower upper := by
  constructor
  · intro done calls p hr hopen q hq
    refine hq.ne_zero ?_ hopen
    cases hr with
    | start _ => exact not_smaller_ordered _
    | pass _ hp =>
      obtain ⟨-, d, e, s', -, -, -, rfl⟩ := hp
      exact not_smaller_ordered s'
  · subst hrun
    rw [runBracket_of_reals hf hl hu, checkedRun, checkedSearch_eq]

/-- A search for the square root of two between one and two divides in its first pass. -/
theorem never_divides_by_zero_square :
    ∃ p q, Reached (doubleAnswer squareLessTwo) (.ofFloat halfTolerance.value) 1 2 0 [1, 2] p ∧
      Divides (.ofFloat halfTolerance.value) p q ∧ (q == 0) = false ∧
      Solver.runBracket ⟨.brent halfTolerance, ⟨3, by decide⟩, .int 0⟩ {} halfTolerance
          squareLessTwo (.int 1) (.int 2) =
        checkedRun ⟨.brent halfTolerance, ⟨3, by decide⟩, .int 0⟩ {} halfTolerance
          squareLessTwo 1 2 := by
  obtain ⟨hdivisors, hrun⟩ := never_divides_by_zero
    (rfl : Solver.runBracket ⟨.brent halfTolerance, ⟨3, by decide⟩, .int 0⟩ {} halfTolerance
      squareLessTwo (.int 1) (.int 2) = _) (fun i x _ => ⟨_, rfl⟩)
    (rfl : (Value.int 1).toDouble = .ok 1) (rfl : (Value.int 2).toDouble = .ok 2)
  have hreached : Reached (doubleAnswer squareLessTwo) (.ofFloat halfTolerance.value) 1 2 0 [1, 2]
      ((Points.start 1 2 (doubleAnswer squareLessTwo 0 1)
        (doubleAnswer squareLessTwo 1 2)).ordered Double) :=
    .start (congrArg Except.ok (by decide +kernel))
  have hdivides := Divides.secant (by decide +kernel : attempts (.ofFloat halfTolerance.value)
      ((Points.start 1 2 (doubleAnswer squareLessTwo 0 1)
        (doubleAnswer squareLessTwo 1 2)).ordered Double) = true)
  exact ⟨_, _, hreached, hdivides, hdivisors _ _ _ hreached (by decide +kernel) _ hdivides, hrun⟩

end RootFinding.Brent
