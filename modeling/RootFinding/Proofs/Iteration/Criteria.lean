import RootFinding.Proofs.Iteration.FirstPass
import RootFinding.FixedPoint.Steffensen
import RootFinding.FixedPoint.Wegstein
import RootFinding.System.Newton
import RootFinding.System.Sand

/-!
# What the methods test

The methods for zeros test the residual at each called point, and the methods that step along a
function's values test each value against its point. The number of iterations follows from the
number of calls in a way that is the method's own.
-/
namespace RootFinding
open Search
variable {α Site Slope Detail : Type}

namespace Iteration

/-- A test of vectors, on an answer of any shape: one of another shape than the point fails. -/
def measured (test : List α → List α → Bool) (x : List α) (y : Grid α) : Bool :=
  decide (y.shape = [x.length]) && test x y.entries

theorem measured_iff {test : List α → List α → Bool} {x : List α} {y : Grid α} :
    measured test x y = true ↔ y.shape = [x.length] ∧ test x y.entries = true := by
  simp [measured]

theorem tests_measure {test : List α → List α → Bool} {rounds : Nat → Nat} {calls : Nat}
    {x : List α} {next : List α → Searching α Site Slope Detail}
    (passed : ∀ y, test x y = true →
      EndsWith ⟨x, true, rounds (calls + 1), calls + 1⟩ (next y))
    (failed : ∀ y, test x y = false → Tests (measured test) rounds (calls + 1) (next y)) :
    Tests (measured test) rounds calls (measure x next) := by
  constructor
  · intro y hy
    obtain ⟨hshape, htest⟩ := measured_iff.1 hy
    rw [if_pos hshape]
    exact passed _ htest
  · intro y hy
    split
    · rename_i hshape
      refine failed _ ?_
      simpa [measured, hshape] using hy
    · exact .fail

end Iteration

open Iteration
variable [Scalar α]

namespace Newton

theorem tests_iterate (tol : List α) (left done : Nat) (x : List α) :
    Tests (measured fun _ fx => isRoot tol fx) (· - 1) done (iterate tol left done x) := by
  induction left generalizing done x with
  | zero => exact .report (.done rfl rfl)
  | succ left ih =>
    refine tests_measure (fun fx hfx => ?_) (fun fx hfx => ?_)
    · simp only [hfx, if_true]
      exact .report (.report .done)
    · simp only [hfx, Bool.false_eq_true, if_false]
      refine .report (.slope fun slope => ?_)
      cases correction slope fx with
      | ok δ => exact ih (done + 1) (Vec.sub x δ)
      | error cause => exact .fail

end Newton

namespace Sand

def test (tol x fx : Grid α) : Bool :=
  decide (fx.shape = x.shape) && (match isRoot tol fx with
    | .ok passed => passed
    | .error _ => false)

theorem test_iff {tol x fx : Grid α} :
    test tol x fx = true ↔ fx.shape = x.shape ∧ isRoot tol fx = .ok true := by
  unfold test
  cases isRoot tol fx with
  | ok passed => simp
  | error cause => simp

omit [Scalar α] in
theorem tests_attempt {Result : Type} {test : Grid α → Grid α → Bool} {rounds : Nat → Nat}
    {calls : Nat} {result : Except Failure Result} {next : Result → Searching α}
    (h : ∀ r, result = .ok r → Tests test rounds calls (next r)) :
    Tests test rounds calls (attempt result next) := by
  cases result with
  | ok r => exact h r rfl
  | error cause => exact .fail

theorem tests_flow {test : Grid α → Grid α → Bool} {rounds : Nat → Nat} {calls : Nat}
    {x fx : Grid α} {next : Grid α → Searching α} (h : ∀ y, Tests test rounds calls (next y)) :
    Tests test rounds calls (flow x fx next) := by
  have hcorrection : ∀ {z : Grid α} {next' : Grid α → Searching α},
      (∀ k, Tests test rounds calls (next' k)) →
        Tests test rounds calls (correction z fx next') := by
    intro z next' hnext
    refine .slope fun slope => ?_
    cases slope with
    | ok jacobian => exact tests_attempt fun k _ => hnext k
    | error kind => exact .fail
  exact hcorrection fun k₁ => tests_attempt fun x₂ _ => hcorrection fun k₂ =>
    tests_attempt fun x₃ _ => hcorrection fun k₃ => tests_attempt fun x₄ _ =>
      hcorrection fun k₄ => tests_attempt fun y _ => h y

theorem tests_iterate (tol : Grid α) (left done : Nat) (x : Grid α) :
    Tests (test tol) (· - 1) done (iterate tol left done x) := by
  induction left generalizing done x with
  | zero => exact .report (.done rfl rfl)
  | succ left ih =>
    constructor
    · intro fx hfx
      obtain ⟨hshape, hroot⟩ := test_iff.1 hfx
      simp only [hshape, if_true, hroot, attempt_ok]
      exact .report (.report .done)
    · intro fx hfx
      split
      · rename_i hshape
        refine .report (tests_attempt fun passed hp => ?_)
        have hfailed : passed = false := by simpa [test, hshape, hp] using hfx
        simp only [hfailed, Bool.false_eq_true, if_false]
        exact tests_flow (ih (done + 1))
      · exact .fail

end Sand

namespace Steffensen

theorem tests_iterate (tol : List (Tolerance α)) (left done : Nat) (x : List α) :
    Tests (measured fun x y => Tolerance.within tol y x) (fun calls => (calls - 1) / 2) (2 * done)
      (iterate tol left done x) := by
  induction left generalizing done x with
  | zero => exact .report (.done rfl rfl)
  | succ left ih =>
    have hfirst : (2 * done + 1 - 1) / 2 = done := by omega
    have hsecond : (2 * done + 1 + 1 - 1) / 2 = done := by omega
    refine .report (tests_measure (fun y hy => ?_) (fun y hy => ?_))
    · simp only [hy, if_true, hfirst]
      exact .report .done
    · simp only [hy, Bool.false_eq_true, if_false]
      refine tests_measure (fun z hz => ?_) (fun z hz => ?_)
      · simp only [hz, if_true, hsecond]
        exact .report .done
      · simp only [hz, Bool.false_eq_true, if_false]
        exact ih (done + 1) (extrapolate x y z)

end Steffensen

namespace Wegstein

theorem tests_iterate (tol : List (Tolerance α)) (left done : Nat) (x' y' x : List α) :
    Tests (measured fun x y => Tolerance.within tol y x) (· - 2) (done + 1)
      (iterate tol left done x' y' x) := by
  induction left generalizing done x' y' x with
  | zero => exact .report (.done rfl rfl)
  | succ left ih =>
    refine .report (tests_measure (fun y hy => ?_) (fun y hy => ?_))
    · simp only [hy, if_true]
      exact .report .done
    · simp only [hy, Bool.false_eq_true, if_false]
      exact ih (done + 1) x y (secants x' y' x y)

theorem tests_search (tol : List (Tolerance α)) (limit : Nat) (x : List α) :
    Tests (measured fun x y => Tolerance.within tol y x) (· - 2) 0 (search limit tol x) := by
  refine .report (tests_measure (fun y hy => ?_) (fun y hy => ?_))
  · simp only [hy, if_true]
    exact .report .done
  · simp only [hy, Bool.false_eq_true, if_false]
    exact tests_iterate tol limit 0 x y y

end Wegstein
end RootFinding
