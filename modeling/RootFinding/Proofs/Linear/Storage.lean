import RootFinding.Proofs.Decoupled.Components
import RootFinding.Proofs.Grid.Stretching
import RootFinding.Proofs.System.ConstantSlope

/-!
# Two storages of a diagonal matrix

A diagonal matrix is stored as a dense matrix or by its diagonal. Whatever the dense storage solves
the other solves alike, but not the other way round: the diagonal has no test for a zero entry and
stretches a right-hand side of a single entry, as it is itself stretched where it has only one.
-/
namespace RootFinding
variable {n : ℕ}

theorem Linear.exactSolution_diagonal (d b : Fin n → ℚ) (hd : ∀ i, d i ≠ 0) :
    exactSolution (Matrix.diagonal d) b = .ok (List.ofFn fun i => b i / d i) := by
  have hdet : (Matrix.diagonal d).det ≠ 0 := by
    rw [Matrix.det_diagonal]
    exact Finset.prod_ne_zero_iff.2 fun i _ => hd i
  refine exactSolution_of_mulVec hdet (funext fun i => ?_)
  rw [Matrix.mulVec_diagonal]
  exact mul_div_cancel₀ _ (hd i)

theorem Linear.exactSolution_diagonal_singular (d b : Fin n → ℚ) {i : Fin n} (hd : d i = 0) :
    exactSolution (Matrix.diagonal d) b = .error .singular := by
  refine if_pos ?_
  rw [Matrix.det_diagonal]
  exact Finset.prod_eq_zero (Finset.mem_univ i) hd

namespace Jacobian

/-- Two answers for a diagonal matrix and a right-hand side that agree: both are the solution, or
both are failures. -/
inductive Alike (d : Fin n → ℚ) (b : List ℚ) :
    Except Failure (Grid ℚ) → Except Failure (Grid ℚ) → Prop
  | solved {x : Fin n → ℚ} (h : b = List.ofFn fun i => d i * x i) :
      Alike d b (.ok (.ofFn x)) (.ok (.ofFn x))
  | refused {cause cause' : Failure} : Alike d b (.error cause) (.error cause')

def denseDiagonal (d : Fin n → ℚ) : Jacobian ℚ := .full n (.ofMatrix (Matrix.diagonal d)) rfl

section Solving
variable (d : Fin n → ℚ)

theorem solve_denseDiagonal_of_length_ne {b : List ℚ} (h : b.length ≠ n) :
    (denseDiagonal d).solve (.vector b) = .error (.rightHandSide n [b.length]) := by
  have hshape : (Grid.vector b).shape ≠ [n] := fun heq => h (List.cons.inj heq).1
  exact if_neg hshape

theorem solve_denseDiagonal (b : Fin n → ℚ) (hd : ∀ i, d i ≠ 0) :
    (denseDiagonal d).solve (.ofFn b) = .ok (.ofFn fun i => b i / d i) := by
  rw [denseDiagonal, solve_ofMatrix, Linear.exactSolution_diagonal d b hd]
  rfl

theorem solve_denseDiagonal_singular (b : Fin n → ℚ) {i : Fin n} (hd : d i = 0) :
    (denseDiagonal d).solve (.ofFn b) = .error .singular := by
  rw [denseDiagonal, solve_ofMatrix, Linear.exactSolution_diagonal_singular d b hd]
  rfl

/-- A lone diagonal answers exactly where it has a common extent with the right-hand side. -/
theorem map_shape_solve_diagonal {α : Type} [Scalar α] (d b : Grid α) :
    ((diagonal d).solve b).toOption.map Grid.shape = Grid.commonShape? b.shape d.shape := by
  rw [← Grid.map_shape_zipWith? (· / ·)]
  simp only [diagonal, solve, and_self, if_true, List.head?_cons]
  cases b.zipWith? (· / ·) d <;> rfl

/-- The entries of one length are answered only if they are a single one, or the diagonal is. -/
theorem solve_diagonal_fails_iff {b : List ℚ} (h : b.length ≠ n) :
    (∃ cause, (diagonal (.ofFn d)).solve (.vector b) = .error cause) ↔ b.length ≠ 1 ∧ n ≠ 1 := by
  have hshape := map_shape_solve_diagonal (.ofFn d) (.vector b)
  rw [Grid.shape_vector, Grid.shape_ofFn, Grid.commonShape?_vectors, Grid.commonExtent?, if_neg h]
    at hshape
  cases hsolve : (diagonal (.ofFn d)).solve (.vector b) with
  | error cause =>
    rw [hsolve] at hshape
    split at hshape
    · cases hshape
    · split at hshape
      · cases hshape
      · exact ⟨fun _ => ⟨‹_›, ‹_›⟩, fun _ => ⟨cause, rfl⟩⟩
  | ok x =>
    rw [hsolve] at hshape
    constructor
    · rintro ⟨cause, hcause⟩
      cases hcause
    · rintro ⟨hb, hn⟩
      rw [if_neg hb, if_neg hn] at hshape
      cases hshape

end Solving

/-- What the dense storage solves is solved alike by the diagonal, and the two agree on a right-hand
side of the right length unless the diagonal has a zero, and on another unless it or the diagonal is
a single entry. -/
theorem storages_alike_iff (d : Fin n → ℚ) (b : List ℚ) :
    ∃ dense banded, ofGrid (.ofMatrix (Matrix.diagonal d)) = .ok dense ∧
      ofDiagonals 0 0 [.ok (.ofFn d)] = .ok banded ∧
      (∀ x, dense.solve (.vector b) = .ok x →
        Alike d b (dense.solve (.vector b)) (banded.solve (.vector b))) ∧
      (Alike d b (dense.solve (.vector b)) (banded.solve (.vector b)) ↔
        (b.length = n → ∀ i, d i ≠ 0) ∧ (b.length ≠ n → b.length ≠ 1 ∧ n ≠ 1)) := by
  refine ⟨denseDiagonal d, diagonal (.ofFn d), ofGrid_ofMatrix _, ofDiagonals_single d, ?_⟩
  by_cases hlength : b.length = n
  · obtain ⟨b, rfl⟩ := exists_eq_ofFn hlength
    rw [solve_diagonal]
    by_cases hd : ∀ i, d i ≠ 0
    · have halike : Alike d (List.ofFn b) ((denseDiagonal d).solve (.ofFn b))
          (.ok (.ofFn fun i => b i / d i)) := by
        rw [solve_denseDiagonal d b hd]
        exact .solved (congrArg List.ofFn (funext fun i => (mul_div_cancel₀ _ (hd i)).symm))
      exact ⟨fun _ _ => halike,
        fun _ => ⟨fun _ => hd, fun hne => absurd hlength hne⟩, fun _ => halike⟩
    · obtain ⟨i, hi⟩ := not_forall_not.1 hd
      rw [solve_denseDiagonal_singular d b hi]
      exact ⟨nofun, nofun, fun h => absurd (h.1 hlength) hd⟩
  · rw [solve_denseDiagonal_of_length_ne d hlength]
    refine ⟨nofun, fun h => ⟨fun heq => absurd heq hlength, fun _ => ?_⟩, fun h => ?_⟩
    · rw [← solve_diagonal_fails_iff d hlength]
      generalize (diagonal (.ofFn d)).solve (.vector b) = answer at h
      cases h with
      | refused => exact ⟨_, rfl⟩
    · obtain ⟨cause, hcause⟩ := (solve_diagonal_fails_iff d hlength).2 (h.2 hlength)
      rw [hcause]
      exact .refused

/-- A right-hand side of a single entry is refused by the dense storage of a matrix of two rows and
stretched by the other. -/
theorem lone_entry_stretched :
    ∃ dense banded, ofGrid (.ofMatrix (Matrix.diagonal ![2, 4])) = .ok dense ∧
      ofDiagonals 0 0 [.ok (.ofFn ![2, 4])] = .ok banded ∧
      dense.solve (.vector [8]) = .error (.rightHandSide 2 [1]) ∧
      (banded.solve (.vector [8])).toOption.map Grid.entries = some [4, 2] ∧
      ¬ Alike ![2, 4] [8] (dense.solve (.vector [8])) (banded.solve (.vector [8])) := by
  have hdense := solve_denseDiagonal_of_length_ne ![2, 4] (b := [8]) (by decide)
  have hbanded : ((diagonal (.ofFn ![(2 : ℚ), 4])).solve (.vector [8])).toOption.map
      Grid.entries = some [4, 2] := by
    decide +kernel
  refine ⟨denseDiagonal ![2, 4], diagonal (.ofFn ![2, 4]), ofGrid_ofMatrix _,
    ofDiagonals_single _, hdense, hbanded, ?_⟩
  rw [hdense]
  intro h
  generalize (diagonal (.ofFn ![(2 : ℚ), 4])).solve (.vector [8]) = answer at h hbanded
  cases h
  cases hbanded

end Jacobian
end RootFinding
