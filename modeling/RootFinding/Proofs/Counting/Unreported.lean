import RootFinding.Proofs.Bracketing.Raised

/-!
# Failures that are no reports

Only a search that does not converge fails with a report. What a solver does besides, from the
reading of its arguments to the solution of a linear system, fails for other causes.
-/
namespace RootFinding

/-- A computation that does not fail with a report. -/
structure Unreported {β : Type} (result : Except Failure β) : Prop where
  ne : ∀ r, result ≠ .error (.notConverged r)

namespace Unreported
variable {β γ : Type}

theorem ok (b : β) : Unreported (.ok b) := by
  constructor
  intro r h
  cases h

theorem error {cause : Failure} (h : ∀ r, cause ≠ .notConverged r) :
    Unreported (.error cause : Except Failure β) := by
  constructor
  intro r hr
  exact h r (Except.error.inj hr)

theorem cause_ne {cause : Failure} (h : Unreported (.error cause : Except Failure β))
    (r : Report) : cause ≠ .notConverged r := by
  rintro rfl
  exact h.ne r rfl

theorem bind {result : Except Failure β} {next : β → Except Failure γ} (h : Unreported result)
    (hnext : ∀ b, Unreported (next b)) : Unreported (result >>= next) := by
  cases result with
  | ok b => exact hnext b
  | error cause => exact error h.cause_ne

theorem report_of_bind {result : Except Failure β} {next : β → Except Failure γ} {r : Report}
    (hnext : ∀ b, Unreported (next b)) (h : result >>= next = .error (.notConverged r)) :
    result = .error (.notConverged r) := by
  cases result with
  | ok b => exact absurd h ((hnext b).ne r)
  | error cause =>
    cases h
    rfl

theorem ite {c : Prop} [Decidable c] {a b : Except Failure β} (ha : Unreported a)
    (hb : Unreported b) : Unreported (if c then a else b) := by
  split
  · exact ha
  · exact hb

theorem mapM {f : β → Except Failure γ} (h : ∀ b, Unreported (f b)) (xs : List β) :
    Unreported (xs.mapM f) := by
  induction xs with
  | nil => exact ok []
  | cons x xs ih =>
    rw [List.mapM_cons]
    exact (h x).bind fun y => ih.bind fun ys => ok _

end Unreported

namespace Value

theorem unreported_roundInt (n : Int) : Unreported (roundInt n) := by
  unfold roundInt
  split
  · exact .ok _
  · exact .error (by simp)

theorem unreported_toDouble (v : Value) : Unreported v.toDouble :=
  ⟨Brent.toDouble_ne_notConverged v⟩

theorem unreported_toEntry (v : Value) : Unreported v.toEntry := by
  unfold toEntry
  split
  · exact .ok _
  · exact .bind (unreported_toDouble _) fun x => .ok _

theorem unreported_toLeaves (v : Value) : Unreported v.toLeaves := by
  unfold toLeaves
  split
  · exact .error (by simp)
  · split
    · exact .error (by simp)
    · split
      · exact .ok _
      · exact .error (by simp)

theorem unreported_toGrid (v : Value) : Unreported v.toGrid := by
  refine .bind (unreported_toLeaves v) fun leaves => ?_
  refine .bind (.mapM unreported_toEntry _) fun entries => ?_
  split
  · exact .ok _
  · exact .error (by simp)

theorem unreported_checkRepetition (v : Value) (times : Int) :
    Unreported (v.checkRepetition times) := by
  unfold checkRepetition checkTextRepetition checkListRepetition
  split
  · exact .ite (.error (by simp)) (.ite (.error (by simp)) (.ite (.error (by simp)) (.ok _)))
  · exact .ite (.error (by simp)) (.ite (.error (by simp)) (.ok _))
  · exact .error (by simp)

end Value

theorem Answer.unreported_toGrid (a : Answer) : Unreported a.toGrid := by
  cases a with
  | value v => exact Value.unreported_toGrid v
  | jacobian j => exact .error (by simp)

namespace Start

theorem unreported_ofValue (v : Value) : Unreported (ofValue v) := by
  refine .bind (Value.unreported_toGrid v) fun a => ?_
  exact .ite (.ok _) (.error (by simp))

theorem unreported_tolerance (s : Start) (v : Value) : Unreported (s.tolerance v) := by
  have hgrid := Value.unreported_toGrid v
  unfold tolerance
  dsimp only
  split
  · split
    · exact .ok _
    · exact .error (by simp)
  · rename_i cause hcause
    rw [hcause] at hgrid
    apply Unreported.error
    unfold toleranceFailure
    split
    · simp
    · simp
    · exact hgrid.cause_ne

end Start

theorem unreported_restore (a : Grid Float) (single : Bool) : Unreported (restore a single) := by
  unfold restore
  refine .ite ?_ (.ok _)
  split
  · exact .ok _
  · exact .error (by simp)

theorem Progress.unreported_shows {Detail : Type} (display : Value) (note : Note Detail) :
    Unreported (Progress.shows display note) := by
  constructor
  intro r h
  cases Progress.shows_error h

namespace Solver

theorem unreported_prepare (x tol : Value) : Unreported (prepare x tol) :=
  .bind (Start.unreported_ofValue x) fun start =>
    .bind (start.unreported_tolerance tol) fun _ => .ok _

theorem unreported_prepareRelative (x absolute relative : Value) :
    Unreported (prepareRelative x absolute relative) :=
  .bind (unreported_prepare x absolute) fun prepared =>
    .bind (prepared.1.unreported_tolerance relative) fun _ => .ok _

end Solver

namespace Linear
variable {α : Type} [Scalar α]

theorem unreported_forward (n : Nat) (rows : List (Equation α)) :
    Unreported (forward n rows) := by
  fun_induction forward n rows with
  | case1 => exact .ok _
  | case2 => exact .error (by simp)
  | case3 n p ps r rest hp ih => exact ih.bind fun _ => .ok _
  | case4 => exact .error (by simp)

theorem unreported_backward (n : Nat) (rows : List (Equation α)) :
    Unreported (backward n rows) := by
  fun_induction backward n rows with
  | case1 => exact .ok _
  | case2 => exact .error (by simp)
  | case3 n p ps r rest hp ih => exact ih.bind fun _ => .ok _
  | case4 => exact .error (by simp)

theorem unreported_eliminate (n : Nat) (rows : List (Equation α)) :
    Unreported (eliminate n rows) := by
  fun_induction eliminate n rows with
  | case1 => exact .ok _
  | case2 => exact .error (by simp)
  | case3 n rows p ps r others h hp ih => exact ih.bind fun _ => .ok _
  | case4 => exact .error (by simp)

theorem unreported_solveBy (n : Nat) (matrix : List (List α)) (b : List α) (pattern : Pattern) :
    Unreported (solveBy n matrix b pattern) := by
  cases pattern with
  | diagonal => exact .ite (.error (by simp)) (.ok _)
  | upper => exact unreported_backward ..
  | lower => exact unreported_forward ..
  | tridiagonal => exact unreported_eliminate ..
  | symmetric =>
    unfold solveBy
    dsimp only
    split
    · exact .ok _
    · exact unreported_eliminate ..
  | general => exact unreported_eliminate ..

theorem unreported_solve (n : Nat) (matrix : List (List α)) (b : List α) :
    Unreported (solve n matrix b) := by
  unfold solve
  refine .ite (.error (by simp)) ?_
  split
  · exact .ite (.error (by simp)) (.ok _)
  · exact .ite (unreported_solveBy ..) (.error (by simp))

end Linear

variable {α : Type} [Scalar α]

theorem Jacobian.unreported_solve (j : Jacobian α) (b : Grid α) : Unreported (j.solve b) := by
  cases j with
  | full n matrix square =>
    exact .ite (.bind (Linear.unreported_solve ..) fun _ => .ok _) (.error (by simp))
  | banded lower upper diagonals counted =>
    refine .ite ?_ (.ite (.error (by simp)) (.error (by simp)))
    split
    · split
      · exact .ok _
      · exact .error (by simp)
    · exact .error (by simp)
  | identity => exact .ok _
  | abstract => exact .error (by simp)

theorem Newton.unreported_correction (slope : Grid α) (fx : List α) :
    Unreported (correction slope fx) := by
  unfold correction
  dsimp only
  split
  · exact Linear.unreported_solve ..
  · exact .error (by simp)

namespace Sand

omit [Scalar α] in
theorem unreported_combine {β : Type} (f : α → α → β) (a b : Grid α) :
    Unreported (combine f a b) := by
  unfold combine
  split
  · exact .ok _
  · exact .error (by simp)

theorem unreported_isRoot (tol fx : Grid α) : Unreported (isRoot tol fx) :=
  .bind (unreported_combine ..) fun _ => .ok _

theorem unreported_step (x k₁ k₂ k₃ k₄ : Grid α) : Unreported (step x k₁ k₂ k₃ k₄) :=
  .bind (unreported_combine ..) fun _ => .bind (unreported_combine ..) fun _ =>
    .bind (unreported_combine ..) fun _ => unreported_combine ..

end Sand

namespace Quantity

theorem unreported_toDouble (x : Quantity) : Unreported x.toDouble := by
  unfold toDouble
  split
  · exact .bind (Value.unreported_roundInt _) fun _ => .ok _
  · exact .ok _

theorem unreported_productPositive (x y : Quantity) : Unreported (productPositive x y) := by
  unfold productPositive
  split
  · exact .ok _
  · exact .bind (unreported_toDouble x) fun _ => .bind (unreported_toDouble y) fun _ => .ok _

theorem unreported_quotient (x y : Quantity) : Unreported (quotient x y) := by
  unfold quotient
  split
  · split
    · exact .ok _
    · exact .error (by simp)
  · exact .bind (unreported_toDouble x) fun _ => .bind (unreported_toDouble y) fun _ => .ok _

theorem unreported_sameSide (x y : Quantity) : Unreported (sameSide x y) :=
  .bind (.bind (unreported_toDouble y) fun _ => .ok _) fun _ =>
    .bind (unreported_toDouble x) fun _ => .ok _

theorem unreported_ends (v w : Value) : Unreported (ends v w) := by
  have hcheck : Unreported (checkProduct v w) := by
    unfold checkProduct
    split
    · exact Value.unreported_checkRepetition ..
    · exact Value.unreported_checkRepetition ..
    · exact .ok _
  unfold ends
  split
  · exact .ok _
  · exact hcheck.bind fun _ => .error (by simp)

theorem unreported_accept (v : Value) : Unreported (accept v) := by
  unfold accept
  split
  · exact .bind (unreported_toDouble _) fun _ => .ok _
  · split
    · exact .error (by simp)
    · exact .error (by simp)

end Quantity

namespace Brent
open Number

theorem unreported_chooseStep (tol : Double) (s : Points Double Quantity) :
    Unreported (chooseStep Value tol s) := by
  have hinterpolation : Unreported (interpolation Value s) := by
    refine .bind (Quantity.unreported_quotient ..) fun sb => .ite (.ok _) ?_
    exact .bind (Quantity.unreported_quotient ..) fun q =>
      .bind (Quantity.unreported_quotient ..) fun r => .ok _
  exact .ite (hinterpolation.bind fun _ => .ok _) (.ok _)

theorem unreported_settle (s : Points Double Quantity) (x : Double) (fx : Quantity)
    (d e : Double) : Unreported (settle Value s x fx d e) :=
  .bind (Quantity.unreported_sameSide ..) fun _ => .ok _

end Brent
end RootFinding
