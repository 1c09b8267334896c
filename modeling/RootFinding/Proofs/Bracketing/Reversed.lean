import RootFinding.Proofs.Bracketing.Refused
import RootFinding.Proofs.Iteration.Criterion
import RootFinding.Proofs.Number.Symmetry
import RootFinding.Proofs.Pairs

/-!
# The order of the endpoints

A search that is given its endpoints the other way round exchanges them at its first test, where
the values there differ in magnitude. What is left of the order is the direction of the first step,
and steps before the present one only count by their lengths: from the third call on the search is
the same.
-/
namespace RootFinding.Brent
open Number Double

variable {tol d e d' e' : Double} {s s' : Points Double Quantity}

def Points.turned (s : Points Double Quantity) (d e : Double) : Points Double Quantity :=
  { s with d, e }

theorem ordered_turned (s : Points Double Quantity) (d e : Double) :
    (s.turned d e).ordered Value = (s.ordered Value).turned d e := by
  unfold Points.ordered Points.turned
  dsimp only
  split <;> rfl

theorem ordered_steps (s : Points Double Quantity) :
    (s.ordered Value).d = s.d ∧ (s.ordered Value).e = s.e := by
  unfold Points.ordered
  split <;> exact ⟨rfl, rfl⟩

def Points.Even (s s' : Points Double Quantity) : Prop :=
  ∃ d e, s' = s.turned d e ∧ d.abs = s.d.abs ∧ e.abs = s.e.abs

theorem Points.Even.ordered (h : s.Even s') : (s.ordered Value).Even (s'.ordered Value) := by
  obtain ⟨d, e, rfl, hd, he⟩ := h
  obtain ⟨hod, hoe⟩ := ordered_steps s
  exact ⟨d, e, ordered_turned s d e, by rw [hod, hd], by rw [hoe, he]⟩

/-- An interpolated step is accepted by the length of the step before the last one only. -/
theorem acceptable_turned (tol1 xm : Double) (pq : Double × Double) (h : e.abs = e'.abs) :
    acceptable tol1 xm e pq = acceptable tol1 xm e' pq := by
  have hwidth : (Scalar.half * e * pq.2).abs = (Scalar.half * e' * pq.2).abs :=
    abs_mul_congr (abs_mul_congr rfl h) rfl
  unfold acceptable
  change (_ && decide (pq.1 < (Scalar.half * e * pq.2).abs)) =
    (_ && decide (pq.1 < (Scalar.half * e' * pq.2).abs))
  rw [hwidth]

/-- The next step is the same. The one that it will be compared with has the same length. -/
theorem chooseStep_turned (h : s.Even s') :
    Corresponds (fun step step' => step.1 = step'.1 ∧ step'.2.abs = step.2.abs)
      (chooseStep Value tol s) (chooseStep Value tol s') := by
  obtain ⟨d, e, rfl, hd, he⟩ := h
  unfold chooseStep
  change Corresponds _ (if (decide (resolution tol s ≤ s.e.abs) && _ : Bool) then _ else _)
    (if (decide (resolution tol s ≤ e.abs) && Reading.smaller Value s.fb s.fa : Bool) then
      (do return if acceptable (resolution tol s) (halfGap s) e (oriented (← interpolation Value s))
        then _ else _) else _)
  rw [he]
  split
  · cases interpolation Value s with
    | error cause => exact .error cause
    | ok pq =>
      have hstep := acceptable_turned (resolution tol s) (halfGap s) (oriented pq) he
      change Corresponds _
        (.ok (if acceptable (resolution tol s) (halfGap s) s.e (oriented pq) then _ else _))
        (.ok (if acceptable (resolution tol s) (halfGap s) e (oriented pq) then _ else _))
      rw [hstep]
      split
      · exact .ok ⟨rfl, hd⟩
      · exact .ok ⟨rfl, rfl⟩
  · exact .ok ⟨rfl, rfl⟩

theorem settle_turned (h : s.Even s') (x : Double) (fx : Quantity) (d : Double)
    (he : e'.abs = e.abs) :
    Corresponds Points.Even (settle Value s x fx d e) (settle Value s' x fx d e') := by
  obtain ⟨_, _, rfl, -, -⟩ := h
  unfold settle
  change Corresponds _ (Reading.sameSide Value fx s.fc >>= _)
    (Reading.sameSide Value fx s.fc >>= _)
  cases Reading.sameSide Value fx s.fc with
  | error cause => exact .error cause
  | ok same =>
    cases same with
    | true => exact .ok ⟨_, _, rfl, rfl, rfl⟩
    | false => exact .ok ⟨d, e', rfl, rfl, he⟩

/-- From the same points on the search is the same, whichever way the last steps went. -/
theorem iterate_turned (left done : Nat) (h : (s.ordered Value).Even (s'.ordered Value)) :
    (iterate tol left done s : Searching Value Quantity Double) = iterate tol left done s' := by
  induction left generalizing done s s' with
  | zero =>
    obtain ⟨d, e, heq, -, -⟩ := h
    rw [iterate, iterate, heq]
    rfl
  | succ left ih =>
    rw [iterate, iterate]
    generalize s.ordered Value = p at h
    generalize s'.ordered Value = p' at h
    have hstep : Corresponds _ (chooseStep Value tol p) (chooseStep Value tol p') :=
      chooseStep_turned h
    obtain ⟨d, e, rfl, -, -⟩ := id h
    change (if isClosed Value tol p then _ else _) = (if isClosed Value tol p then _ else _)
    split
    · rfl
    · apply Search.attempt_congr hstep
      rintro ⟨d₁, e₁⟩ ⟨d₂, e₂⟩ ⟨hd, he⟩
      dsimp only at hd he
      subst hd
      change Search.evaluate (advance tol p d₁) _ = Search.evaluate (advance tol p d₁) _
      congr 1
      funext raw
      cases Reading.accept raw with
      | error cause => rfl
      | ok fx =>
        simp only [Search.attempt_ok]
        congr 1
        apply Search.attempt_congr (settle_turned h (advance tol p d₁) fx d₁ he)
        intro q q' hnext
        exact ih (done + 1) hnext.ordered

theorem not_smaller_of_smaller {x y : Quantity} (h : x.smaller y = true) :
    y.smaller x = false := by
  unfold Quantity.smaller at h ⊢
  cases hx : x.exact <;> cases hy : y.exact <;> simp only [hx, hy] at h ⊢
  case inl.inl m n => simpa using Nat.le_of_lt (of_decide_eq_true h)
  case inl.inr m y =>
    rw [eq_of_beq h]
    rfl
  case inr.inl x n =>
    rw [eq_of_beq h]
    rfl
  case inr.inr x y => simpa using not_lt_of_lt (of_decide_eq_true h)

/-- The first test exchanges the endpoints where the first value is the smaller one. -/
theorem even_start (lower upper : Double) {x y : Quantity} (h : x.smaller y = true) :
    ((Points.start lower upper x y).ordered Value).Even
      ((Points.start upper lower y x).ordered Value) := by
  have hleft : (Points.start lower upper x y).ordered Value =
      { a := upper, fa := y, b := lower, fb := x, c := upper, fc := y, d := upper - lower,
        e := upper - lower } := if_pos h
  have hright : (Points.start upper lower y x).ordered Value = Points.start upper lower y x :=
    if_neg (Bool.eq_false_iff.1 (not_smaller_of_smaller h))
  rw [hleft, hright]
  exact ⟨lower - upper, lower - upper, rfl, abs_sub_comm .., abs_sub_comm ..⟩

theorem roundInt_error {n : Int} {cause : Failure} (h : Value.roundInt n = .error cause) :
    cause = .tooLarge := by
  unfold Value.roundInt at h
  split at h
  · cases h
  · cases h
    rfl

theorem toDouble_error {x : Quantity} {cause : Failure} (h : x.toDouble = .error cause) :
    cause = .tooLarge := by
  unfold Quantity.toDouble at h
  split at h
  · rename_i n _
    cases hn : Value.roundInt n with
    | ok z =>
      rw [hn] at h
      cases h
    | error cause' =>
      rw [hn] at h
      cases h
      exact roundInt_error hn
  · cases h

theorem pos_mul_comm {x y : Double} : 0 < x * y ↔ 0 < y * x := by
  rw [pos_mul_iff, pos_mul_iff, vanishing_comm]
  exact and_congr_left' Alike.comm

theorem productPositive_comm (x y : Quantity) :
    x.productPositive y = y.productPositive x := by
  have hrounded : (do return 0 < (← x.toDouble) * (← y.toDouble) : Except Failure Bool) =
      do return 0 < (← y.toDouble) * (← x.toDouble) := by
    cases hx : x.toDouble with
    | error cause =>
      cases hy : y.toDouble with
      | error cause' =>
        rw [toDouble_error hx, toDouble_error hy]
      | ok b => rfl
    | ok a =>
      cases hy : y.toDouble with
      | error cause => rfl
      | ok b => exact congrArg Except.ok (decide_eq_decide.2 pos_mul_comm)
  unfold Quantity.productPositive
  cases hx : x.exact <;> cases hy : y.exact
  case inl.inl m n => simp only [mul_comm]
  all_goals exact hrounded

theorem ends_toValue (x y : Quantity) : Quantity.ends x.toValue y.toValue = .ok (x, y) := by
  cases x <;> cases y <;> rfl

variable {lower upper : Double} {limit : Nat}
  {caller : Caller Double Value Empty Empty (Double × Quantity)}

theorem iterate_start_comm {x y : Quantity} (h : x.smaller y = true ∨ y.smaller x = true)
    (left done : Nat) :
    (iterate tol left done (.start lower upper x y) : Searching Value Quantity Double) =
      iterate tol left done (.start upper lower y x) := by
  rcases h with h | h
  · exact iterate_turned left done (even_start lower upper h)
  · exact (iterate_turned left done (even_start upper lower h)).symm

/-- A run with its endpoints in the other order makes the same calls after the first two, and comes
to the same end. -/
theorem run_search_reversed (limit : Nat) (tol : Double) {x y : Quantity}
    (h : x.smaller y = true ∨ y.smaller x = true)
    (hl : ∀ n, caller.value n lower = .ok x.toValue)
    (hu : ∀ n, caller.value n upper = .ok y.toValue) :
    ∃ more, ((search limit tol lower upper).run caller).evaluations = #[lower, upper] ++ more ∧
      (search limit tol upper lower).run caller =
        { (search limit tol lower upper).run caller with
          evaluations := #[upper, lower] ++ more } := by
  have hrun (l u : Double) (x y : Quantity) (hl : caller.value 0 l = .ok x.toValue)
      (hu : caller.value 1 u = .ok y.toValue) :
      (search limit tol l u).run caller = Search.runFrom caller #[l, u] #[] #[]
        (.attempt (x.productPositive y) fun same => if same then .fail .sameSign
          else .report (.heading none) (iterate tol (limit + 1) 0 (.start l u x y))) := by
    have h0 : caller.value (#[] : Array Double).size l = .ok x.toValue := hl
    have h1 : caller.value ((#[] : Array Double).push l).size u = .ok y.toValue := hu
    rw [Search.run, search, Search.runFrom, h0]
    dsimp only
    rw [Search.runFrom, h1]
    change Search.runFrom caller _ _ _ (Search.attempt (Quantity.ends x.toValue y.toValue) _) = _
    rw [ends_toValue]
    rfl
  rw [hrun lower upper x y (hl 0) (hu 1), hrun upper lower y x (hu 0) (hl 1),
    productPositive_comm y, ← iterate_start_comm h]
  exact Search.runFrom_append _ rfl

variable {solver : Solver} {options : RunOptions} {t : RootTolerance} {f : Function} {v w : Value}

/-- A solver that is given two points the other way round makes the same run but for its first two
calls, where the values there are numbers of different magnitudes. -/
theorem runBracket_reversed (hf : f.Memoryless) (hl : v.toDouble = .ok lower)
    (hu : w.toDouble = .ok upper) {x y : Quantity}
    (hx : f { argument := .number lower, number := 0 } = .ok (.value x.toValue))
    (hy : f { argument := .number upper, number := 0 } = .ok (.value y.toValue))
    (h : x.smaller y = true ∨ y.smaller x = true) :
    ∃ more, (solver.runBracket options t f v w).evaluations =
        #[.real lower, .real upper] ++ more ∧
      solver.runBracket options t f w v =
        { solver.runBracket options t f v w with
          evaluations := #[.real upper, .real lower] ++ more } := by
  have hcall (z : Double) {q : Quantity}
      (hq : f { argument := .number z, number := 0 } = .ok (.value q.toValue)) (n : Nat) :
      (bracketCaller solver f).value n z = .ok q.toValue := by
    change (do return (← f { argument := .number z, number := n }).toReading) = _
    have hpure := hf { argument := .number z, number := 0 } n
    dsimp only at hpure
    rw [hpure, hq]
    rfl
  obtain ⟨more, hmore, hrun⟩ := run_search_reversed solver.limit.count (.ofFloat t.value) h
    (hcall lower hx) (hcall upper hy)
  refine ⟨more.map .real, ?_, ?_⟩
  · rw [runBracket_of_bounds hl hu]
    simp [Run.ofTrace, hmore]
  · rw [runBracket_of_bounds hl hu, runBracket_of_bounds hu hl, hrun]
    simp [Run.ofTrace]

end RootFinding.Brent
