import Mathlib.LinearAlgebra.Matrix.NonsingularInverse
import Mathlib.LinearAlgebra.Matrix.ToLinearEquiv
import RootFinding.Proofs.Linear.Settled

/-!
# Exact solutions

Over exact fractions a linear system is solved in each of its ways by the inverse matrix, and is
refused exactly where there is none.
-/
namespace RootFinding.Linear
open Matrix Vec
variable {n : ℕ} {A : Matrix (Fin n) (Fin n) ℚ} {b : Fin n → ℚ}

noncomputable def exactSolution (A : Matrix (Fin n) (Fin n) ℚ) (b : Fin n → ℚ) :
    Except Failure (List ℚ) :=
  if A.det = 0 then .error .singular else .ok (List.ofFn (A⁻¹ *ᵥ b))

def equations (A : Matrix (Fin n) (Fin n) ℚ) (b : Fin n → ℚ) : List (Equation ℚ) :=
  (rows A).zip (List.ofFn b)

theorem equations_eq_ofFn : equations A b = List.ofFn fun i => (List.ofFn (A i), b i) :=
  zipWith_ofFn Prod.mk _ b

@[simp] theorem length_equations : (equations A b).length = n := by
  rw [equations_eq_ofFn, List.length_ofFn]

theorem wide_equations : Wide n (equations A b) := by
  rw [Wide, equations_eq_ofFn, List.forall_mem_ofFn_iff]
  intro i
  exact List.length_ofFn

theorem solves_equations_iff (c : ℚ) (v : Fin n → ℚ) :
    Solves c (equations A b) (List.ofFn v) ↔ A *ᵥ v = c • b := by
  rw [Solves, equations_eq_ofFn, List.forall_mem_ofFn_iff, funext_iff]
  simp only [dot_ofFn]
  rfl

theorem exactSolution_of_mulVec {v : Fin n → ℚ} (hd : A.det ≠ 0) (hv : A *ᵥ v = b) :
    exactSolution A b = .ok (List.ofFn v) := by
  have hunit : IsUnit A.det := isUnit_iff_ne_zero.2 hd
  rw [exactSolution, if_neg hd, ← hv, mulVec_mulVec, nonsing_inv_mul A hunit, one_mulVec]

theorem Settled.eq_exactSolution {result : Except Failure (List ℚ)}
    (h : Settled n (equations A b) result) : result = exactSolution A b := by
  cases h with
  | @unique x hx h =>
    obtain ⟨v, rfl⟩ := exists_eq_ofFn hx
    have hiff : ∀ w : Fin n → ℚ, A *ᵥ w = b ↔ w = v := by
      intro w
      have hw := h (List.ofFn w) List.length_ofFn
      rwa [solves_equations_iff, one_smul, List.ofFn_inj] at hw
    have hv := (hiff v).2 rfl
    refine (exactSolution_of_mulVec ?_ hv).symm
    intro hd
    obtain ⟨w, hne, hw⟩ := exists_mulVec_eq_zero_iff.2 hd
    have hsum := (hiff (v + w)).1 (by rw [mulVec_add, hv, hw, add_zero])
    exact hne (by simpa using hsum)
  | @singular y hy hne h =>
    obtain ⟨v, rfl⟩ := exists_eq_ofFn hy
    rw [solves_equations_iff, zero_smul] at h
    have hv : v ≠ 0 := by
      rintro rfl
      obtain ⟨a, ha, hne⟩ := hne
      obtain ⟨i, rfl⟩ := List.mem_ofFn.1 ha
      exact hne rfl
    rw [exactSolution, if_pos (exists_mulVec_eq_zero_iff.1 ⟨v, hv, h⟩)]

theorem zeros_of_zeroOutside {lower upper : ℕ} {matrix : List (List ℚ)}
    (h : zeroOutside lower upper matrix = true) {i : ℕ} {row : List ℚ}
    (hrow : matrix[i]? = some row) :
    (∀ a ∈ row.take (i - lower), a = 0) ∧ ∀ a ∈ row.drop (i + upper + 1), a = 0 := by
  have hmem : (row, i) ∈ matrix.zipIdx := List.mk_mem_zipIdx_iff_getElem?.2 hrow
  have hall := List.all_eq_true.1 h _ hmem
  simpa using hall

theorem getElem?_equations {i : ℕ} {row : Equation ℚ} (h : (equations A b)[i]? = some row) :
    (rows A)[i]? = some row.1 := by
  rw [equations, List.getElem?_zip_eq_some] at h
  exact h.1

theorem startAtDiagonal_equations (h : zeroOutside 0 n (rows A) = true) :
    StartAtDiagonal (equations A b) := by
  intro i row hrow
  have hzeros := (zeros_of_zeroOutside h (getElem?_equations hrow)).1
  rwa [Nat.sub_zero] at hzeros

theorem endAtDiagonal_equations (h : zeroOutside n 0 (rows A) = true) :
    EndAtDiagonal (equations A b) := by
  intro i row hrow
  exact (zeros_of_zeroOutside h (getElem?_equations hrow)).2

theorem eq_zero_of_zeroOutside (h : zeroOutside 0 0 (rows A) = true) (i j : Fin n) (hij : i ≠ j) :
    A i j = 0 := by
  have hrow : (rows A)[i.val]? = some (List.ofFn (A i)) := by simp [rows]
  obtain ⟨hbefore, hafter⟩ := zeros_of_zeroOutside h hrow
  rcases lt_or_gt_of_ne hij with hlt | hlt
  · apply hafter
    rw [List.mem_drop_iff_getElem]
    exact ⟨j - (i + 1), by simp; omega, by simp [show i.val + 0 + 1 + (j - (i + 1)) = j by omega]⟩
  · apply hbefore
    rw [List.mem_take_iff_getElem]
    exact ⟨j, by simp; omega, by simp⟩

theorem diagonalOf_rows : diagonalOf (rows A) = List.ofFn fun i => A i i := by
  apply List.ext_getElem
  · simp [diagonalOf, rows]
  · intro i hi hi'
    have hlt : i < n := by simpa using hi'
    simp [diagonalOf, rows, hlt]

theorem divide_eq_exactSolution (hA : ∀ i j, i ≠ j → A i j = 0) :
    divide (diagonalOf (rows A)) (List.ofFn b) = exactSolution A b := by
  have hdiagonal : A = Matrix.diagonal fun i => A i i := by
    ext i j
    by_cases hij : i = j
    · rw [hij, diagonal_apply_eq]
    · rw [hA i j hij, diagonal_apply_ne _ hij]
  have hdet : A.det = ∏ i, A i i := by
    rw [hdiagonal, det_diagonal]
    simp
  rw [divide, diagonalOf_rows]
  split
  · rename_i h
    have hzero : ∃ i, A i i = 0 := by simpa [List.any_eq_true] using h
    obtain ⟨i, hi⟩ := hzero
    rw [exactSolution, if_pos (hdet.trans (Finset.prod_eq_zero (Finset.mem_univ i) hi))]
  · rename_i h
    have hne : ∀ i, A i i ≠ 0 := by simpa [List.any_eq_true] using h
    have hd : A.det ≠ 0 := hdet ▸ Finset.prod_ne_zero_iff.2 fun i _ => hne i
    rw [div_ofFn]
    refine (exactSolution_of_mulVec hd (funext fun i => ?_)).symm
    calc (A *ᵥ (b / fun i => A i i)) i
        = (Matrix.diagonal (fun i => A i i) *ᵥ (b / fun i => A i i)) i :=
          congrArg (fun M => (M *ᵥ (b / fun i => A i i)) i) hdiagonal
      _ = A i i * (b i / A i i) := mulVec_diagonal ..
      _ = b i := mul_div_cancel₀ _ (hne i)

theorem bySquareRoots_eq_none (rows : List (Equation ℚ)) : bySquareRoots (n + 1) rows = none := by
  unfold bySquareRoots
  split
  · contradiction
  · split
    · rfl
    · rfl
  · rfl

theorem solveBy_eq_exactSolution :
    solveBy n (rows A) (List.ofFn b) (patternOf n (rows A)) = exactSolution A b := by
  have heliminate : eliminate n (equations A b) = exactSolution A b :=
    (settled_eliminate length_equations wide_equations).eq_exactSolution
  unfold patternOf
  split
  · rename_i h
    exact divide_eq_exactSolution (eq_zero_of_zeroOutside h)
  · split
    · rename_i h
      exact (settled_backward length_equations wide_equations
        (startAtDiagonal_equations h)).eq_exactSolution
    · split
      · rename_i h
        exact (settled_forward length_equations wide_equations
          (endAtDiagonal_equations h)).eq_exactSolution
      · split
        · exact heliminate
        · split
          · cases n with
            | zero => exact heliminate
            | succ n => rw [solveBy, bySquareRoots_eq_none]; exact heliminate
          · exact heliminate

/-- Over exact fractions a linear system is solved by the inverse matrix, and refused where there is
none. -/
theorem solve_eq_exactSolution : solve n (rows A) (List.ofFn b) = exactSolution A b := by
  have hfinite : ∀ xs : List ℚ, xs.all Scalar.isFinite = true := fun xs =>
    List.all_eq_true.2 fun _ _ => rfl
  have hmatrix : (rows A).all (·.all Scalar.isFinite) = true :=
    List.all_eq_true.2 fun row _ => hfinite row
  unfold solve
  rw [hmatrix, hfinite, if_neg (by simp)]
  split
  · rename_i a heq
    obtain rfl : n = 1 := by simpa [rows] using congrArg List.length heq
    have hdiagonal : ∀ i j : Fin 1, i ≠ j → A i j = 0 := fun i j hij =>
      absurd (Subsingleton.elim i j) hij
    rw [← divide_eq_exactSolution hdiagonal, heq]
    simp [divide, diagonalOf, Vec.div]
  · rw [if_pos List.length_ofFn]
    exact solveBy_eq_exactSolution

end RootFinding.Linear
