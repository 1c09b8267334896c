import Mathlib.Algebra.BigOperators.Fin
import Mathlib.Data.List.OfFn
import Mathlib.Data.Matrix.Mul
import RootFinding.FixedPoint.Broyden
import RootFinding.FixedPoint.Steffensen
import RootFinding.FixedPoint.Wegstein

/-!
# Vectors as families and exact matrices

A list of numbers is a family over its places, and what the methods do in each component they do to
the members of families. Over exact fractions a list of rows is a matrix, and the arithmetic of the
methods is that of families and matrices.
-/
namespace RootFinding
open Matrix
variable {n : ℕ}

theorem zipWith_ofFn {α β γ : Type} (g : α → β → γ) (u : Fin n → α) (v : Fin n → β) :
    List.zipWith g (List.ofFn u) (List.ofFn v) = List.ofFn fun i => g (u i) (v i) := by
  apply List.ext_getElem
  · simp
  · intro i hi hi'
    simp

theorem exists_eq_ofFn {α : Type} {xs : List α} (h : xs.length = n) :
    ∃ u : Fin n → α, xs = List.ofFn u := by
  subst h
  exact ⟨xs.get, (List.ofFn_get xs).symm⟩

section Components
variable {α : Type} [Scalar α]

theorem Tolerance.within_ofFn {tol : Fin n → Tolerance α} {x y : Fin n → α} :
    Tolerance.within (List.ofFn tol) (List.ofFn x) (List.ofFn y) = true ↔
      ∀ i, (tol i).close (x i) (y i) = true := by
  induction n with
  | zero => simp [within]
  | succ n ih => simp only [List.ofFn_succ, within, Bool.and_eq_true, ih, Fin.forall_fin_succ]

theorem Wegstein.secants_ofFn (x' y' x y : Fin n → α) :
    secants (List.ofFn x') (List.ofFn y') (List.ofFn x) (List.ofFn y) =
      List.ofFn fun i => secant (x' i) (y' i) (x i) (y i) := by
  induction n with
  | zero => rfl
  | succ n ih => simp [List.ofFn_succ, secants, ih]

theorem Steffensen.extrapolate_ofFn (x y z : Fin n → α) :
    extrapolate (List.ofFn x) (List.ofFn y) (List.ofFn z) =
      List.ofFn fun i => aitken (x i) (y i) (z i) := by
  induction n with
  | zero => rfl
  | succ n ih => simp [List.ofFn_succ, extrapolate, ih]

end Components

namespace Vec

@[simp] theorem add_ofFn (u v : Fin n → ℚ) : add (List.ofFn u) (List.ofFn v) = List.ofFn (u + v) :=
  zipWith_ofFn _ u v

@[simp] theorem sub_ofFn (u v : Fin n → ℚ) : sub (List.ofFn u) (List.ofFn v) = List.ofFn (u - v) :=
  zipWith_ofFn _ u v

@[simp] theorem mul_ofFn (u v : Fin n → ℚ) : mul (List.ofFn u) (List.ofFn v) = List.ofFn (u * v) :=
  zipWith_ofFn _ u v

@[simp] theorem div_ofFn (u v : Fin n → ℚ) : div (List.ofFn u) (List.ofFn v) = List.ofFn (u / v) :=
  zipWith_ofFn _ u v

theorem sum_eq (xs : List ℚ) : sum xs = xs.sum := by
  rw [List.sum_eq_foldl]
  rfl

@[simp] theorem dot_ofFn (u v : Fin n → ℚ) : dot (List.ofFn u) (List.ofFn v) = u ⬝ᵥ v := by
  rw [dot, mul_ofFn, sum_eq, List.sum_ofFn]
  rfl

def rows (A : Matrix (Fin n) (Fin n) ℚ) : List (List ℚ) := List.ofFn fun i => List.ofFn (A i)

@[simp] theorem apply_rows (A : Matrix (Fin n) (Fin n) ℚ) (v : Fin n → ℚ) :
    apply (rows A) (List.ofFn v) = List.ofFn (A *ᵥ v) := by
  simp only [apply, rows, List.map_ofFn, Function.comp_def, dot_ofFn]
  rfl

@[simp] theorem addMatrix_rows (A B : Matrix (Fin n) (Fin n) ℚ) :
    addMatrix (rows A) (rows B) = rows (A + B) := by
  simp only [addMatrix, rows, zipWith_ofFn, add_ofFn]
  rfl

@[simp] theorem outer_ofFn (u v : Fin n → ℚ) :
    outer (List.ofFn u) (List.ofFn v) = rows (vecMulVec u v) := by
  simp only [outer, scale, List.map_ofFn, Function.comp_def]
  rfl

@[simp] theorem diagonal_ofFn (d : Fin n → ℚ) :
    diagonal (List.ofFn d) = rows (Matrix.diagonal d) := by
  apply List.ext_getElem
  · simp [rows]
  · intro i hi hi'
    apply List.ext_getElem
    · simp [diagonal, rows]
    · intro j hj hj'
      simp [diagonal, rows, Matrix.diagonal_apply]

end Vec
end RootFinding
