import RootFinding.Proofs.Bracketing.Reversed
import RootFinding.Proofs.Reporting.Transcripts

/-!
# The iterations that the methods report

Each method reports an iteration at a place of its own: before the call, after it or after the step
from it, and once before its loop. So the number of iterations that it has reported at its end is
told by its iterations or by its calls, in a way of its own. The failures of a bracketing search
after its heading are those of its arithmetic.
-/
namespace RootFinding
open Search

def Family.lines (iterations evaluations : Nat) : Family → Nat
  | .brent | .broyden => iterations
  | .newton | .sand => evaluations
  | .wegstein => evaluations - 1
  | .steffensen => (evaluations + 1) / 2

namespace Iteration
variable {α Point Site Slope Detail : Type} {equations stage : Option Nat}

def telling (Point : Type) (family : Family) : Telling (Ending Point) where
  converged := Ending.converged
  lines e := family.lines e.iterations e.evaluations

abbrev Chronicles (equations : Option Nat) (family : Family) (stage : Option Nat)
    {Reading : Type} (search : Search Point Reading Site Slope Detail (Ending Point)) : Prop :=
  Chronicled equations (telling Point family) (fun _ => True) stage search

theorem chronicles_measure {family : Family} {x : List α}
    {next : List α → Searching α Site Slope Detail}
    (h : ∀ y, Chronicles equations family stage (next y)) :
    Chronicles equations family stage (measure x next) := by
  refine .evaluate fun y => ?_
  split
  · apply h
  · exact .fail (.inr trivial)

end Iteration

open Iteration
variable {α : Type} [Scalar α] {equations : Option Nat}

theorem Newton.chronicles_iterate (tol : List α) (left done : Nat) (x : List α) :
    Chronicles equations .newton (some done) (iterate tol left done x) := by
  induction left generalizing done x with
  | zero => exact .ends rfl rfl
  | succ left ih =>
    refine chronicles_measure fun fx => .iteration ?_
    split
    · exact .ends rfl rfl
    · exact .slope fun slope => .attempt (fun _ _ => .inr trivial) fun δ => ih (done + 1) _

namespace Sand

theorem chronicles_correction {stage : Option Nat} {x fx : Grid α} {next : Grid α → Searching α}
    (h : ∀ k, Chronicles equations .sand stage (next k)) :
    Chronicles equations .sand stage (correction x fx next) := by
  refine .slope fun slope => ?_
  cases slope with
  | ok jacobian => exact .attempt (fun _ _ => .inr trivial) h
  | error kind => exact .fail (.inr trivial)

theorem chronicles_flow {stage : Option Nat} {x fx : Grid α} {next : Grid α → Searching α}
    (h : ∀ y, Chronicles equations .sand stage (next y)) :
    Chronicles equations .sand stage (flow x fx next) := by
  refine chronicles_correction fun k₁ => .attempt (fun _ _ => .inr trivial) fun x₂ => ?_
  refine chronicles_correction fun k₂ => .attempt (fun _ _ => .inr trivial) fun x₃ => ?_
  refine chronicles_correction fun k₃ => .attempt (fun _ _ => .inr trivial) fun x₄ => ?_
  exact chronicles_correction fun k₄ => .attempt (fun _ _ => .inr trivial) h

theorem chronicles_iterate (tol : Grid α) (left done : Nat) (x : Grid α) :
    Chronicles equations .sand (some done) (iterate tol left done x) := by
  induction left generalizing done x with
  | zero => exact .ends rfl rfl
  | succ left ih =>
    refine .evaluate fun fx => ?_
    split
    · refine .iteration (.attempt (fun _ _ => .inr trivial) fun passed => ?_)
      split
      · exact .ends rfl rfl
      · exact chronicles_flow fun y => ih (done + 1) y
    · exact .fail (.inr trivial)

end Sand

theorem Steffensen.chronicles_iterate (tol : List (Tolerance α)) (left done : Nat) (x : List α) :
    Chronicles equations .steffensen (some done) (iterate tol left done x) := by
  induction left generalizing done x with
  | zero => exact .ends (show (2 * done + 1) / 2 = done by omega) rfl
  | succ left ih =>
    refine .iteration (chronicles_measure fun y => ?_)
    split
    · exact .ends (show (2 * done + 1 + 1) / 2 = done + 1 by omega) rfl
    · refine chronicles_measure fun z => ?_
      split
      · exact .ends (show (2 * done + 2 + 1) / 2 = done + 1 by omega) rfl
      · exact ih (done + 1) _

namespace Wegstein

theorem chronicles_iterate (tol : List (Tolerance α)) (left done : Nat) (x' y' x : List α) :
    Chronicles equations .wegstein (some done) (iterate tol left done x' y' x) := by
  induction left generalizing done x' y' x with
  | zero => exact .ends rfl rfl
  | succ left ih =>
    refine .iteration (chronicles_measure fun y => ?_)
    split
    · exact .ends rfl rfl
    · exact ih (done + 1) ..

theorem chronicles_search (limit : Nat) (tol : List (Tolerance α)) (x : List α) :
    Chronicles (some x.length) .wegstein none (search limit tol x) := by
  refine .heading (chronicles_measure fun y => ?_)
  split
  · exact .ends rfl rfl
  · exact chronicles_iterate ..

end Wegstein

namespace Broyden

theorem chronicles_iterate (tol : List (Tolerance α)) (left done : Nat) (s : Estimate α)
    (x : List α) : Chronicles equations .broyden (some done) (iterate tol left done s x) := by
  induction left generalizing done s x with
  | zero => exact .ends rfl rfl
  | succ left ih =>
    refine chronicles_measure fun y => .iteration ?_
    split
    · exact .ends rfl rfl
    · exact ih (done + 1) ..

/-- The two plain steps count as the first iteration, which is reported before the loop. -/
theorem chronicles_search (limit : Nat) (tol : List (Tolerance α)) (x : List α) :
    Chronicles (some x.length) .broyden none (search limit tol x) := by
  refine .heading (chronicles_measure fun y => ?_)
  split
  · exact .ends rfl rfl
  · refine chronicles_measure fun z => ?_
    split
    · exact .ends rfl rfl
    · exact .iteration (chronicles_iterate ..)

end Broyden

/-- A computation that fails for some causes only. -/
structure FailsOnly {β : Type} (causes : Failure → Prop) (result : Except Failure β) : Prop where
  of_error : ∀ cause, result = .error cause → causes cause

namespace FailsOnly
variable {β γ : Type} {causes : Failure → Prop}

theorem ok (b : β) : FailsOnly causes (.ok b) := ⟨nofun⟩

theorem error {cause : Failure} (h : causes cause) :
    FailsOnly causes (.error cause : Except Failure β) :=
  ⟨fun _ hcause => Except.error.inj hcause ▸ h⟩

theorem bind {result : Except Failure β} {next : β → Except Failure γ}
    (h : FailsOnly causes result) (hnext : ∀ b, FailsOnly causes (next b)) :
    FailsOnly causes (result >>= next) := by
  cases result with
  | ok b => exact hnext b
  | error cause => exact error (h.of_error cause rfl)

theorem at_stage {result : Except Failure β} (h : FailsOnly causes result) {stage : Option Nat}
    (cause : Failure) (hcause : result = .error cause) : stage = none ∨ causes cause :=
  .inr (h.of_error cause hcause)

end FailsOnly

namespace Quantity

/-- The failures over numbers that are too large and answers that are no numbers. -/
def Unreadable (cause : Failure) : Prop :=
  cause = .tooLarge ∨ cause = .badPrecision ∨ cause = .wrongKind

theorem unreadable_toDouble (x : Quantity) : FailsOnly Unreadable x.toDouble :=
  ⟨fun _ h => .inl (Brent.toDouble_error h)⟩

theorem unreadable_quotient (x y : Quantity) : FailsOnly Unreadable (quotient x y) := by
  unfold quotient
  split
  · split
    · exact .ok _
    · exact .error (.inl rfl)
  · exact .bind (unreadable_toDouble x) fun _ => .bind (unreadable_toDouble y) fun _ => .ok _

theorem unreadable_sameSide (x y : Quantity) : FailsOnly Unreadable (sameSide x y) :=
  .bind (.bind (unreadable_toDouble y) fun _ => .ok _) fun _ =>
    .bind (unreadable_toDouble x) fun _ => .ok _

theorem unreadable_accept (v : Value) : FailsOnly Unreadable (accept v) := by
  unfold accept
  split
  · exact .bind (unreadable_toDouble _) fun _ => .ok _
  · split
    · exact .error (.inr (.inl rfl))
    · exact .error (.inr (.inr rfl))

end Quantity

namespace Brent
open Number

theorem unreadable_chooseStep (tol : Double) (s : Points Double Quantity) :
    FailsOnly Quantity.Unreadable (chooseStep Value tol s) := by
  have hinterpolation : FailsOnly Quantity.Unreadable (interpolation Value s) := by
    refine .bind (Quantity.unreadable_quotient ..) fun sb => ?_
    split
    · exact .ok _
    · exact .bind (Quantity.unreadable_quotient ..) fun q =>
        .bind (Quantity.unreadable_quotient ..) fun r => .ok _
  unfold chooseStep
  dsimp only
  split
  · exact .bind hinterpolation fun _ => .ok _
  · exact .ok _

theorem unreadable_settle (s : Points Double Quantity) (x : Double) (fx : Quantity)
    (d e : Double) : FailsOnly Quantity.Unreadable (settle Value s x fx d e) :=
  .bind (Quantity.unreadable_sameSide ..) fun _ => .ok _

def telling : Telling (Ending Double Quantity) where
  converged
    | .root _ _ => true
    | .exhausted .. => false
  lines
    | .root _ iterations => iterations
    | .exhausted _ _ _ _ iterations => iterations

theorem chronicled_iterate (tol : Double) (left done : Nat) (s : Points Double Quantity) :
    Chronicled equations telling Quantity.Unreadable (some done)
      (iterate tol left done s : Searching Value Quantity Double) := by
  induction left generalizing done s with
  | zero => exact .ends rfl rfl
  | succ left ih =>
    rw [iterate]
    dsimp only
    split
    · exact .ends rfl rfl
    · refine .attempt (unreadable_chooseStep ..).at_stage fun step => .evaluate fun raw => ?_
      refine .attempt (Quantity.unreadable_accept raw).at_stage fun fx => .iteration ?_
      exact .attempt (unreadable_settle ..).at_stage fun s => ih (done + 1) s

theorem chronicled_search (limit : Nat) (tol lower upper : Double) :
    Chronicled none telling Quantity.Unreadable none
      (search limit tol lower upper : Searching Value Quantity Double) := by
  refine .evaluate fun rawLower => .evaluate fun rawUpper => ?_
  refine .attempt (fun _ _ => .inl rfl) fun ends => .attempt (fun _ _ => .inl rfl) fun same => ?_
  split
  · exact .fail (.inl rfl)
  · exact .heading (chronicled_iterate ..)

end Brent
end RootFinding
