import RootFinding.Proofs.Decoupled.Leads
import RootFinding.Proofs.System.Families

/-!
# Some of the components

Steffensen's and Wegstein's methods and the flow along a diagonal Jacobian compute each component of
a point from the same component of the points and values before. Only the tests look at all of them,
so that a search over some components is led by the search over all.
-/
namespace RootFinding
open Iteration Search
variable {α : Type} {m n : ℕ} {σ : Fin m → Fin n}

/-- A vector of `n` numbers, and the vector of some of them. -/
def Grid.Selects (σ : Fin m → Fin n) (a b : Grid α) : Prop :=
  ∃ u : Fin n → α, a = .ofFn u ∧ b = .ofFn (u ∘ σ)

def Jacobian.diagonal (d : Grid α) : Jacobian α := .banded 0 0 [d] rfl

theorem Jacobian.ofDiagonals_single (d : Fin n → α) :
    ofDiagonals 0 0 [.ok (.ofFn d)] = .ok (diagonal (.ofFn d)) := rfl

/-- The comparison of a search over vectors with one over some of their components. -/
def Iteration.selection (α : Type) (σ : Fin m → Fin n) :
    Comparison (List α) (Grid α) Empty Empty where
  points x x' := Grid.Selects σ (.vector x) (.vector x')
  readings := Grid.Selects σ
  sites _ _ := False
  slopes _ _ := True

def Sand.selection (α : Type) (σ : Fin m → Fin n) :
    Comparison (Grid α) (Grid α) (Grid α) (Slope α) where
  points := Grid.Selects σ
  readings := Grid.Selects σ
  sites := Grid.Selects σ
  slopes y y' := ∃ d d', y = .ok (.diagonal d) ∧ y' = .ok (.diagonal d') ∧ Grid.Selects σ d d'

theorem Iteration.leads_measure {Detail : Type} {x : Fin n → α}
    {next next' : List α → Searching α Empty Empty Detail}
    (h : ∀ y : Fin n → α,
      Leads (Iteration.selection α σ) (next (List.ofFn y)) (next' (List.ofFn (y ∘ σ)))) :
    Leads (Iteration.selection α σ) (measure (List.ofFn x) next)
      (measure (List.ofFn (x ∘ σ)) next') := by
  refine .evaluate ⟨x, rfl, rfl⟩ ?_
  rintro _ _ ⟨y, rfl, rfl⟩
  have hshape : (Grid.ofFn y).shape = [(List.ofFn x).length] := by simp
  have hshape' : (Grid.ofFn (y ∘ σ)).shape = [(List.ofFn (x ∘ σ)).length] := by simp
  rw [if_pos hshape, if_pos hshape']
  exact h y

section FixedPoints
variable [Scalar α] (tol : Fin n → Tolerance α)

theorem Tolerance.within_selected {x y : Fin n → α}
    (h : within (List.ofFn tol) (List.ofFn x) (List.ofFn y) = true) :
    within (List.ofFn (tol ∘ σ)) (List.ofFn (x ∘ σ)) (List.ofFn (y ∘ σ)) = true :=
  within_ofFn.2 fun j => within_ofFn.1 h (σ j)

theorem Steffensen.leads_iterate (left done : Nat) (x : Fin n → α) :
    Leads (Iteration.selection α σ) (iterate (List.ofFn tol) left done (List.ofFn x))
      (iterate (List.ofFn (tol ∘ σ)) left done (List.ofFn (x ∘ σ))) := by
  induction left generalizing done x with
  | zero => exact .report (.exhausted rfl)
  | succ left ih =>
    refine .report (leads_measure fun y => ?_)
    refine .test (Tolerance.within_selected tol) (.report .done) rfl ⟨x, rfl, rfl⟩ ?_
    refine leads_measure fun z => ?_
    refine .test (Tolerance.within_selected tol) (.report .done) rfl ⟨y, rfl, rfl⟩ ?_
    rw [extrapolate_ofFn, extrapolate_ofFn]
    exact ih (done + 1) fun i => aitken (x i) (y i) (z i)

namespace Wegstein

theorem leads_iterate (left done : Nat) (x' y' x : Fin n → α) :
    Leads (Iteration.selection α σ)
      (iterate (List.ofFn tol) left done (List.ofFn x') (List.ofFn y') (List.ofFn x))
      (iterate (List.ofFn (tol ∘ σ)) left done (List.ofFn (x' ∘ σ)) (List.ofFn (y' ∘ σ))
        (List.ofFn (x ∘ σ))) := by
  induction left generalizing done x' y' x with
  | zero => exact .report (.exhausted rfl)
  | succ left ih =>
    refine .report (leads_measure fun y => ?_)
    refine .test (Tolerance.within_selected tol) (.report .done) rfl ⟨x, rfl, rfl⟩ ?_
    rw [secants_ofFn, secants_ofFn]
    exact ih (done + 1) x y fun i => secant (x' i) (y' i) (x i) (y i)

theorem leads_search (limit : Nat) (x : Fin n → α) :
    Leads (Iteration.selection α σ) (search limit (List.ofFn tol) (List.ofFn x))
      (search limit (List.ofFn (tol ∘ σ)) (List.ofFn (x ∘ σ))) := by
  refine .report (leads_measure fun y => ?_)
  refine .test (Tolerance.within_selected tol) (.report .done) rfl ⟨x, rfl, rfl⟩ ?_
  exact leads_iterate tol limit 0 x y y

end Wegstein
end FixedPoints

section Flow
variable [Scalar α]

theorem Newton.isRoot_selected {t u : Fin n → α}
    (h : isRoot (List.ofFn t) (List.ofFn u) = true) :
    isRoot (List.ofFn (t ∘ σ)) (List.ofFn (u ∘ σ)) = true :=
  isRoot_ofFn.2 fun j => isRoot_ofFn.1 h (σ j)

theorem Jacobian.solve_diagonal (d b : Fin n → α) :
    (diagonal (.ofFn d)).solve (.ofFn b) = .ok (.ofFn fun i => b i / d i) := by
  simp only [diagonal, solve, and_self, if_true, List.head?_cons, Grid.zipWith?_ofFn]

namespace Sand

theorem leads_correction {x fx : Fin n → α} {next next' : Grid α → Searching α}
    (h : ∀ k : Fin n → α, Leads (selection α σ) (next (.ofFn k)) (next' (.ofFn (k ∘ σ)))) :
    Leads (selection α σ) (correction (.ofFn x) (.ofFn fx) next)
      (correction (.ofFn (x ∘ σ)) (.ofFn (fx ∘ σ)) next') := by
  refine .slope ⟨x, rfl, rfl⟩ ?_
  rintro _ _ ⟨_, _, rfl, rfl, d, rfl, rfl⟩
  simp only [Jacobian.solve_diagonal, attempt_ok]
  exact h fun i => fx i / d i

theorem leads_flow {x fx : Fin n → α} {next next' : Grid α → Searching α}
    (h : ∀ y : Fin n → α, Leads (selection α σ) (next (.ofFn y)) (next' (.ofFn (y ∘ σ)))) :
    Leads (selection α σ) (flow (.ofFn x) (.ofFn fx) next)
      (flow (.ofFn (x ∘ σ)) (.ofFn (fx ∘ σ)) next') := by
  refine leads_correction fun k₁ => ?_
  simp only [stage_ofFn, attempt_ok]
  refine leads_correction (x := fun i => x i - Scalar.half * k₁ i) fun k₂ => ?_
  simp only [stage_ofFn, attempt_ok]
  refine leads_correction (x := fun i => x i - Scalar.half * k₂ i) fun k₃ => ?_
  simp only [combine_ofFn, attempt_ok]
  refine leads_correction (x := fun i => x i - k₃ i) fun k₄ => ?_
  simp only [step_ofFn, attempt_ok]
  exact h fun i => x i - (k₁ i + 2 * (k₂ i + k₃ i) + k₄ i) / 6

theorem leads_iterate (tol : Fin n → α) (left done : Nat) (x : Fin n → α) :
    Leads (selection α σ) (iterate (.ofFn tol) left done (.ofFn x))
      (iterate (.ofFn (tol ∘ σ)) left done (.ofFn (x ∘ σ))) := by
  induction left generalizing done x with
  | zero => exact .report (.exhausted rfl)
  | succ left ih =>
    refine .evaluate ⟨x, rfl, rfl⟩ ?_
    rintro _ _ ⟨fx, rfl, rfl⟩
    simp only [Grid.shape_ofFn, if_true, isRoot_ofFn, attempt_ok]
    refine .report (.test Newton.isRoot_selected (.report .done) rfl ⟨x, rfl, rfl⟩ ?_)
    exact leads_flow fun y => ih (done + 1) y

end Sand
end Flow
end RootFinding
