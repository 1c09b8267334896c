import RootFinding.Proofs.Counting.Counted

/-!
# The counts of the methods

Each method counts its iterations in a way of its own. How many calls and slopes go with them at the
end depends on whether the search converged and on the test that it passed.
-/
namespace RootFinding
open Search

namespace Family

/-- How the numbers of iterations, calls and slopes of a search go together at its end, by whether
it converged. -/
def Counts (limit iterations calls slopes : Nat) : Family → Bool → Prop
  | .brent, true => iterations ≤ limit ∧ calls = iterations + 2 ∧ slopes = 0
  | .brent, false => iterations = limit + 1 ∧ calls = iterations + 2 ∧ slopes = 0
  | .newton, true => iterations < limit ∧ calls = iterations + 1 ∧ slopes = iterations
  | .newton, false => iterations = limit ∧ calls = limit ∧ slopes = iterations
  | .sand, true => iterations < limit ∧ calls = iterations + 1 ∧ slopes = 4 * iterations
  | .sand, false => iterations = limit ∧ calls = limit ∧ slopes = 4 * iterations
  | .broyden, true =>
    (iterations = 0 ∧ (calls = 1 ∨ calls = 2) ∨
      2 ≤ iterations ∧ iterations ≤ limit ∧ calls = iterations + 1) ∧ slopes = 0
  | .broyden, false => iterations = limit ∧ calls = limit + 1 ∧ slopes = 0
  | .steffensen, true =>
    iterations < limit ∧ (calls = 2 * iterations + 1 ∨ calls = 2 * iterations + 2) ∧ slopes = 0
  | .steffensen, false => iterations = limit ∧ calls = 2 * limit ∧ slopes = 0
  | .wegstein, true =>
    (iterations = 0 ∧ calls = 1 ∨ iterations < limit ∧ calls = iterations + 2) ∧ slopes = 0
  | .wegstein, false => iterations = limit ∧ calls = limit + 1 ∧ slopes = 0

def mostCalls (limit : Nat) : Family → Nat
  | .brent => limit + 3
  | .newton | .sand => limit
  | .broyden | .wegstein => limit + 1
  | .steffensen => 2 * limit

end Family

namespace Iteration
variable {α Point Site Slope Detail : Type} {most calls slopes : Nat}
  {agrees : Nat → Nat → Ending (List α) → Prop}

/-- The ending of an iteration on a system tells its calls, and their number goes with that of its
iterations. -/
def Tells (family : Family) (limit calls slopes : Nat) (e : Ending Point) : Prop :=
  e.evaluations = calls ∧ family.Counts limit e.iterations calls slopes e.converged

theorem counted_measure {x : List α} {next : List α → Searching α Site Slope Detail}
    (hl : calls < most) (h : ∀ y, Counted most agrees (calls + 1) slopes (next y)) :
    Counted most agrees calls slopes (measure x next) := by
  refine .evaluate hl fun y => ?_
  split
  · apply h
  · exact .fail (by simp)

end Iteration

open Iteration
variable {α : Type} [Scalar α] {limit : Nat}

namespace Newton

theorem counted_iterate (tol : List α) {left done : Nat} (hl : left + done = limit) (x : List α) :
    Counted limit (Tells .newton limit) done done (iterate tol left done x) := by
  induction left generalizing done x with
  | zero =>
    obtain rfl : done = limit := by omega
    exact .report (.done ⟨rfl, rfl, rfl, rfl⟩)
  | succ left ih =>
    refine counted_measure (by omega) fun fx => .report ?_
    split
    · exact .report (.done ⟨rfl, show done < limit by omega, rfl, rfl⟩)
    · refine .slope fun slope => .attempt (unreported_correction slope fx) fun δ => ?_
      exact ih (by omega) _

theorem counted_search (limit : Nat) (tol x : List α) :
    Counted limit (Tells .newton limit) 0 0 (search limit tol x) :=
  .report (counted_iterate tol (Nat.add_zero limit) x)

end Newton

namespace Sand
variable {most calls slopes : Nat} {agrees : Nat → Nat → Ending (Grid α) → Prop}

theorem counted_correction {x fx : Grid α} {next : Grid α → Searching α}
    (h : ∀ k, Counted most agrees calls (slopes + 1) (next k)) :
    Counted most agrees calls slopes (correction x fx next) := by
  refine .slope fun slope => ?_
  cases slope with
  | ok jacobian => exact .attempt (jacobian.unreported_solve fx) h
  | error kind => exact .fail (by simp)

theorem counted_flow {x fx : Grid α} {next : Grid α → Searching α}
    (h : ∀ y, Counted most agrees calls (slopes + 4) (next y)) :
    Counted most agrees calls slopes (flow x fx next) := by
  refine counted_correction fun k₁ => .attempt (unreported_combine ..) fun x₂ => ?_
  refine counted_correction fun k₂ => .attempt (unreported_combine ..) fun x₃ => ?_
  refine counted_correction fun k₃ => .attempt (unreported_combine ..) fun x₄ => ?_
  exact counted_correction fun k₄ => .attempt (unreported_step ..) h

theorem counted_iterate (tol : Grid α) {left done : Nat} (hl : left + done = limit) (x : Grid α) :
    Counted limit (Tells .sand limit) done (4 * done) (iterate tol left done x) := by
  induction left generalizing done x with
  | zero =>
    obtain rfl : done = limit := by omega
    exact .report (.done ⟨rfl, rfl, rfl, rfl⟩)
  | succ left ih =>
    refine .evaluate (by omega) fun fx => ?_
    split
    · refine .report (.attempt (unreported_isRoot tol fx) fun passed => ?_)
      split
      · exact .report (.done ⟨rfl, show done < limit by omega, rfl, rfl⟩)
      · exact counted_flow fun y => ih (by omega) y
    · exact .fail (by simp)

theorem counted_search (limit : Nat) (tol x : List α) :
    Counted limit (Tells .sand limit) 0 0 (search limit tol x) :=
  .report (counted_iterate _ (Nat.add_zero limit) _)

end Sand

namespace Steffensen

theorem counted_iterate (tol : List (Tolerance α)) {left done : Nat} (hl : left + done = limit)
    (x : List α) :
    Counted (2 * limit) (Tells .steffensen limit) (2 * done) 0 (iterate tol left done x) := by
  induction left generalizing done x with
  | zero =>
    obtain rfl : done = limit := by omega
    exact .report (.done ⟨rfl, rfl, rfl, rfl⟩)
  | succ left ih =>
    refine .report (counted_measure (by omega) fun y => ?_)
    split
    · exact .report (.done ⟨rfl, show done < limit by omega, .inl rfl, rfl⟩)
    · refine counted_measure (by omega) fun z => ?_
      split
      · exact .report (.done ⟨rfl, show done < limit by omega, .inr rfl, rfl⟩)
      · exact ih (show left + (done + 1) = limit by omega) _

theorem counted_search (limit : Nat) (tol : List (Tolerance α)) (x : List α) :
    Counted (2 * limit) (Tells .steffensen limit) 0 0 (search limit tol x) :=
  .report (counted_iterate tol (Nat.add_zero limit) x)

end Steffensen

namespace Wegstein

theorem counted_iterate (tol : List (Tolerance α)) {left done : Nat} (hl : left + done = limit)
    (x' y' x : List α) :
    Counted (limit + 1) (Tells .wegstein limit) (done + 1) 0 (iterate tol left done x' y' x) := by
  induction left generalizing done x' y' x with
  | zero =>
    obtain rfl : done = limit := by omega
    exact .report (.done ⟨rfl, rfl, rfl, rfl⟩)
  | succ left ih =>
    refine .report (counted_measure (by omega) fun y => ?_)
    split
    · exact .report (.done ⟨rfl, .inr ⟨show done < limit by omega, rfl⟩, rfl⟩)
    · exact ih (by omega) ..

theorem counted_search (limit : Nat) (tol : List (Tolerance α)) (x : List α) :
    Counted (limit + 1) (Tells .wegstein limit) 0 0 (search limit tol x) := by
  refine .report (counted_measure (by omega) fun y => ?_)
  split
  · exact .report (.done ⟨rfl, .inl ⟨rfl, rfl⟩, rfl⟩)
  · exact counted_iterate tol (Nat.add_zero limit) ..

end Wegstein

namespace Broyden

theorem counted_iterate (tol : List (Tolerance α)) {left done : Nat} (hl : left + done = limit)
    (hd : 1 ≤ done) (s : Estimate α) (x : List α) :
    Counted (limit + 1) (Tells .broyden limit) (done + 1) 0 (iterate tol left done s x) := by
  induction left generalizing done s x with
  | zero =>
    obtain rfl : done = limit := by omega
    exact .report (.done ⟨rfl, rfl, rfl, rfl⟩)
  | succ left ih =>
    refine counted_measure (by omega) fun y => .report ?_
    split
    · exact .report (.done ⟨rfl, .inr ⟨show 2 ≤ done + 1 by omega, show done + 1 ≤ limit by omega,
        rfl⟩, rfl⟩)
    · exact ih (by omega) (by omega) ..

theorem counted_search (hl : 1 ≤ limit) (tol : List (Tolerance α)) (x : List α) :
    Counted (limit + 1) (Tells .broyden limit) 0 0 (search limit tol x) := by
  refine .report (counted_measure (by omega) fun y => ?_)
  split
  · exact .report (.done ⟨rfl, .inl ⟨rfl, .inl rfl⟩, rfl⟩)
  · refine counted_measure (by omega) fun z => ?_
    split
    · exact .report (.done ⟨rfl, .inl ⟨rfl, .inr rfl⟩, rfl⟩)
    · exact .report (counted_iterate tol (Nat.sub_add_cancel hl) (Nat.le_refl 1) ..)

end Broyden

namespace Brent
open Number

/-- The ending of a bracketing search tells its iterations, with which the number of its calls
goes. -/
def Tells (limit calls slopes : Nat) : Ending Double Quantity → Prop
  | .root _ iterations => Family.brent.Counts limit iterations calls slopes true
  | .exhausted _ _ _ _ iterations => Family.brent.Counts limit iterations calls slopes false

theorem counted_iterate (tol : Double) {left done : Nat} (hl : left + done = limit + 1)
    (s : Points Double Quantity) :
    Counted (limit + 3) (Tells limit) (done + 2) 0
      (iterate tol left done s : Searching Value Quantity Double) := by
  induction left generalizing done s with
  | zero => exact .report (.done ⟨by omega, rfl, rfl⟩)
  | succ left ih =>
    rw [iterate]
    dsimp only
    split
    · exact .report (.done ⟨show done ≤ limit by omega, rfl, rfl⟩)
    · refine .attempt (unreported_chooseStep ..) fun step => .evaluate (by omega) fun raw => ?_
      refine .attempt (Quantity.unreported_accept raw) fun fx => .report ?_
      exact .attempt (unreported_settle ..) fun s => ih (by omega) s

theorem counted_search (limit : Nat) (tol lower upper : Double) :
    Counted (limit + 3) (Tells limit) 0 0
      (search limit tol lower upper : Searching Value Quantity Double) := by
  refine .evaluate (by omega) fun rawLower => .evaluate (by omega) fun rawUpper => ?_
  refine .attempt (Quantity.unreported_ends ..) fun ends => ?_
  refine .attempt (Quantity.unreported_productPositive ..) fun same => ?_
  split
  · exact .fail (by simp)
  · exact .report (counted_iterate tol (Nat.add_zero (limit + 1)) _)

end Brent
end RootFinding
