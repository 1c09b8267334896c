import RootFinding.FixedPoint.Broyden
import RootFinding.Proofs.Grid.Related
import RootFinding.Proofs.Iteration.Criteria
import RootFinding.Proofs.Truncation.Forks

/-!
# Methods for systems under other limits and tolerances

Limits and tolerances have no part in the points that a method comes to. Two searches of one method
from one start fork: the one that ends first has reached the lower limit, or has passed a test that
the other one fails.
-/
namespace RootFinding
open Search
variable {α : Type}

namespace Iteration
variable {Site Slope Detail : Type} {ends ends' : Ending (List α) → Prop}

theorem forks_measure {x : List α} {next next' : List α → Searching α Site Slope Detail}
    (h : ∀ y, Forks ends ends' (next y) (next' y)) :
    Forks ends ends' (measure x next) (measure x next') := by
  refine .evaluate x fun y => ?_
  split
  · exact h y.entries
  · exact .refl _

end Iteration

open Iteration
variable [Scalar α] {l l' : Nat}

section Vectors
variable {ends ends' : Ending (List α) → Prop}

theorem Newton.forks_iterate {tol tol' : List α}
    (hl : MayEnd ends l l' (isRoot tol) (isRoot tol'))
    (hr : MayEnd ends' l' l (isRoot tol') (isRoot tol)) (done : Nat) (x : List α) :
    Forks ends ends' (iterate tol l done x) (iterate tol' l' done x) := by
  apply Forks.of_step (iterate tol) (iterate tol') (fun _ _ => rfl)
    (fun _ _ => ⟨_, rfl, .report .done⟩) _ hl hr
  intro l l' done x hl hr ih
  refine forks_measure fun fx => .report _ ?_
  refine .branch hl hr fx rfl (.report .done) ?_
  exact .slope _ fun slope => .attempt _ fun δ => ih (done + 1) (Vec.sub x δ)

def Tolerance.passes (tol : List (Tolerance α)) (step : List α × List α) : Bool :=
  within tol step.1 step.2

variable {tol tol' : List (Tolerance α)}
  (hl : MayEnd ends l l' (Tolerance.passes tol) (Tolerance.passes tol'))
  (hr : MayEnd ends' l' l (Tolerance.passes tol') (Tolerance.passes tol))
include hl hr

theorem Steffensen.forks_iterate (done : Nat) (x : List α) :
    Forks ends ends' (iterate tol l done x) (iterate tol' l' done x) := by
  apply Forks.of_step (iterate tol) (iterate tol') (fun _ _ => rfl)
    (fun _ _ => ⟨_, rfl, .report .done⟩) _ hl hr
  intro l l' done x hl hr ih
  refine .report _ (forks_measure fun y => ?_)
  refine .branch hl hr (y, x) rfl (.report .done) (forks_measure fun z => ?_)
  exact .branch hl hr (z, y) rfl (.report .done) (ih (done + 1) (extrapolate x y z))

theorem Wegstein.forks_iterate (done : Nat) (x' y' x : List α) :
    Forks ends ends' (iterate tol l done x' y' x) (iterate tol' l' done x' y' x) := by
  let loop (tol : List (Tolerance α)) (l done : Nat) (s : List α × List α × List α) :=
    iterate tol l done s.1 s.2.1 s.2.2
  apply Forks.of_step (loop tol) (loop tol') (fun _ _ => rfl)
    (fun _ _ => ⟨_, rfl, .report .done⟩) _ hl hr done (x', y', x)
  rintro l l' done ⟨x', y', x⟩ hl hr ih
  refine .report _ (forks_measure fun y => ?_)
  exact .branch hl hr (y, x) rfl (.report .done) (ih (done + 1) (x, y, secants x' y' x y))

theorem Wegstein.forks_search (x : List α) :
    Forks ends ends' (search l tol x) (search l' tol' x) := by
  refine .report _ (forks_measure fun y => ?_)
  exact .branch hl hr (y, x) rfl (.report .done) (forks_iterate hl hr 0 x y y)

theorem Broyden.forks_iterate (done : Nat) (s : Estimate α) (x : List α) :
    Forks ends ends' (iterate tol l done s x) (iterate tol' l' done s x) := by
  let loop (tol : List (Tolerance α)) (l done : Nat) (s : Estimate α × List α) :=
    iterate tol l done s.1 s.2
  apply Forks.of_step (loop tol) (loop tol') (fun _ _ => rfl)
    (fun _ _ => ⟨_, rfl, .report .done⟩) _ hl hr done (s, x)
  rintro l l' done ⟨s, x⟩ hl hr ih
  refine forks_measure fun y => .report _ ?_
  exact .branch hl hr ((s.observe x y).propose, x) rfl (.report .done) (ih (done + 1) (_, _))

theorem Broyden.forks_search (x : List α) :
    Forks ends ends' (search l tol x) (search l' tol' x) := by
  refine .report _ (forks_measure fun y => ?_)
  refine .branch hl hr (y, x) rfl (.report .done) (forks_measure fun z => ?_)
  refine .branch hl hr (z, y) rfl (.report .done) (.report _ ?_)
  refine forks_iterate (hl.mono ?_) (hr.mono ?_) 1 _ _
  · omega
  · omega

end Vectors

namespace Sand
variable {ends ends' : Ending (Grid α) → Prop} {tol tol' : Grid α}

/-- Residuals are tested alike against tolerances that are related. -/
theorem corresponds_isRoot {S : α → α → Prop} {T : Bool → Bool → Prop}
    (htol : Grid.Related S tol tol')
    (hT : ∀ f t t', S t t' → T (decide (Scalar.abs f < t)) (decide (Scalar.abs f < t')))
    (fx : Grid α) :
    Corresponds (fun passed passed' => ∃ below below', List.Forall₂ T below below' ∧
      passed = below.all id ∧ passed' = below'.all id) (isRoot tol fx) (isRoot tol' fx) := by
  have hbelow := Grid.rel_zipWith? (R := Eq) (S := S) (T := T)
    (fun f t : α => decide (Scalar.abs f < t)) (fun f t : α => decide (Scalar.abs f < t))
    (by rintro f _ t t' rfl ht; exact hT f t t' ht) (Grid.related_self (fun _ => rfl) fx) htol
  simp only [isRoot, combine]
  generalize fx.zipWith? _ tol = c, fx.zipWith? _ tol' = c' at hbelow
  cases hbelow with
  | none => exact .error _
  | some h => exact .ok ⟨_, _, h.entries, rfl, rfl⟩

/-- Whether a residual can be tested goes by the shape of the tolerance. -/
theorem corresponds_test (htol : tol.shape = tol'.shape) {x fx : Grid α}
    (hfx : fx.shape = x.shape) :
    Corresponds (fun passed passed' => passed = test tol x fx ∧ passed' = test tol' x fx)
      (isRoot tol fx) (isRoot tol' fx) := by
  have h := corresponds_isRoot (T := fun _ _ => True) (Grid.related_of_shape htol)
    (fun _ _ _ _ => trivial) fx
  simp only [test, hfx, decide_true, Bool.true_and]
  generalize isRoot tol fx = result, isRoot tol' fx = result' at h
  cases h with
  | ok h => exact .ok ⟨rfl, rfl⟩
  | error cause => exact .error cause

theorem forks_flow {x fx : Grid α} {next next' : Grid α → Searching α}
    (h : ∀ y, Forks ends ends' (next y) (next' y)) :
    Forks ends ends' (flow x fx next) (flow x fx next') := by
  have hcorrection : ∀ {z : Grid α} {next next' : Grid α → Searching α},
      (∀ k, Forks ends ends' (next k) (next' k)) →
        Forks ends ends' (correction z fx next)
          (correction z fx next') := by
    intro z next next' hnext
    refine .slope z fun slope => ?_
    cases slope with
    | ok jacobian => exact .attempt _ hnext
    | error kind => exact .refl _
  exact hcorrection fun k₁ => .attempt _ fun x₂ => hcorrection fun k₂ => .attempt _ fun x₃ =>
    hcorrection fun k₃ => .attempt _ fun x₄ => hcorrection fun k₄ => .attempt _ h

theorem forks_iterate (htol : tol.shape = tol'.shape)
    (hl : MayEnd ends l l' (fun p : Grid α × Grid α => test tol p.1 p.2)
      fun p => test tol' p.1 p.2)
    (hr : MayEnd ends' l' l (fun p : Grid α × Grid α => test tol' p.1 p.2)
      fun p => test tol p.1 p.2) (done : Nat) (x : Grid α) :
    Forks ends ends' (iterate tol l done x) (iterate tol' l' done x) := by
  apply Forks.of_step (iterate tol) (iterate tol') (fun _ _ => rfl)
    (fun _ _ => ⟨_, rfl, .report .done⟩) _ hl hr
  intro l l' done x hl hr ih
  refine .evaluate x fun fx => ?_
  split
  · rename_i hfx
    refine .report _ (.attempt_of (corresponds_test htol hfx) ?_)
    rintro _ _ ⟨rfl, rfl⟩
    exact .branch hl hr (x, fx) rfl (.report .done) (forks_flow (ih (done + 1)))
  · exact .refl _

end Sand
end RootFinding
