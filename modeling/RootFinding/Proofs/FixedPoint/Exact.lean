import Mathlib.Algebra.Order.Ring.Rat
import Mathlib.Tactic.LinearCombination
import RootFinding.Proofs.FixedPoint.Vectors

/-!
# Exact estimates

Over exact fractions an estimate of Broyden's method is two vectors and a matrix. Where the last
change of the point was the step against the residual, the corrected matrix maps the new residual to
a multiple of what the matrix mapped it to before, and loses no rank unless that multiple is zero.
-/
namespace RootFinding.Broyden
open Matrix
variable {n : ℕ}

def Estimate.step {α : Type} [Scalar α] (s : Estimate α) : List α :=
  Vec.apply s.inverse (Vec.sub s.value s.point)

def Estimate.exact (p q : Fin n → ℚ) (H : Matrix (Fin n) (Fin n) ℚ) : Estimate ℚ :=
  ⟨List.ofFn p, List.ofFn q, Vec.rows H⟩

/-- The matrix after a change of rank one by which it maps `dg` to `dx`. -/
def corrected (H : Matrix (Fin n) (Fin n) ℚ) (dx dg : Fin n → ℚ) : Matrix (Fin n) (Fin n) ℚ :=
  H + (dg ⬝ᵥ dg)⁻¹ • vecMulVec (dx - H *ᵥ dg) dg

@[simp] theorem update_rows (H : Matrix (Fin n) (Fin n) ℚ) (dx dg : Fin n → ℚ) :
    update (Vec.rows H) (List.ofFn dx) (List.ofFn dg) = Vec.rows (corrected H dx dg) := by
  have hscale : ((Vec.rows (vecMulVec (dx - H *ᵥ dg) dg)).map fun row =>
      row.map fun a => a / (dg ⬝ᵥ dg)) =
      Vec.rows ((dg ⬝ᵥ dg)⁻¹ • vecMulVec (dx - H *ᵥ dg) dg) := by
    simp only [Vec.rows, List.map_ofFn, Function.comp_def, div_eq_inv_mul]
    rfl
  simp [update, corrected, hscale]

theorem step_exact (p q : Fin n → ℚ) (H : Matrix (Fin n) (Fin n) ℚ) :
    (Estimate.exact p q H).step = List.ofFn (H *ᵥ (q - p)) := by
  simp [Estimate.step, Estimate.exact]

theorem propose_exact (p q : Fin n → ℚ) (H : Matrix (Fin n) (Fin n) ℚ) :
    (Estimate.exact p q H).propose = List.ofFn (H *ᵥ (q - p) + p) := by
  simp [Estimate.propose, Estimate.exact]

@[simp] theorem slopes_ofFn (x y z : Fin n → ℚ) :
    slopes (List.ofFn x) (List.ofFn y) (List.ofFn z) =
      List.ofFn ((y - x) / ((fun i => 2 * y i) - x - z)) := by
  simp only [slopes, List.map_ofFn, Vec.sub_ofFn, Vec.div_ofFn]
  rfl

theorem ofSteps_exact (x y z : Fin n → ℚ) :
    Estimate.ofSteps (List.ofFn x) (List.ofFn y) (List.ofFn z) =
      .exact y z (diagonal ((y - x) / ((fun i => 2 * y i) - x - z))) := by
  simp [Estimate.ofSteps, Estimate.exact]

theorem observe_exact (p q p' q' : Fin n → ℚ) (H : Matrix (Fin n) (Fin n) ℚ) :
    (Estimate.exact p q H).observe (List.ofFn p') (List.ofFn q') =
      .exact p' q' (corrected H (p' - p) (p' - q' - (p - q))) := by
  simp [Estimate.observe, Estimate.exact, residualChange]

/-- What the corrected matrix does to a vector, where `dx` was the step against a residual `g` and
`dg` is the change from there to `g'`. -/
theorem corrected_mulVec (H : Matrix (Fin n) (Fin n) ℚ) (g g' v : Fin n → ℚ) :
    corrected H (-(H *ᵥ g)) (g' - g) *ᵥ v =
      H *ᵥ (v - (((g' - g) ⬝ᵥ v) / ((g' - g) ⬝ᵥ (g' - g))) • g') := by
  have hdiff : -(H *ᵥ g) - H *ᵥ (g' - g) = -(H *ᵥ g') := by
    rw [mulVec_sub, neg_sub_left, sub_add_cancel]
  rw [corrected, hdiff, add_mulVec, smul_mulVec, vecMulVec_mulVec, mulVec_sub, mulVec_smul]
  ext i
  simp only [Pi.add_apply, Pi.sub_apply, Pi.smul_apply, Pi.neg_apply, smul_eq_mul,
    MulOpposite.smul_eq_mul_unop, MulOpposite.unop_op]
  ring

theorem one_sub_dotProduct_div {g g' : Fin n → ℚ} (hd : (g' - g) ⬝ᵥ (g' - g) ≠ 0) :
    1 - (g' - g) ⬝ᵥ g' / (g' - g) ⬝ᵥ (g' - g) = -((g' - g) ⬝ᵥ g) / (g' - g) ⬝ᵥ (g' - g) := by
  rw [eq_div_iff hd, sub_mul, div_mul_cancel₀ _ hd, one_mul, dotProduct_sub]
  ring

/-- The new residual is mapped to a multiple of what the matrix mapped it to before. -/
theorem corrected_mulVec_self (H : Matrix (Fin n) (Fin n) ℚ) {g g' : Fin n → ℚ}
    (hd : (g' - g) ⬝ᵥ (g' - g) ≠ 0) :
    corrected H (-(H *ᵥ g)) (g' - g) *ᵥ g' =
      (-((g' - g) ⬝ᵥ g) / (g' - g) ⬝ᵥ (g' - g)) • (H *ᵥ g') := by
  rw [corrected_mulVec, ← one_sub_dotProduct_div hd, ← mulVec_smul, sub_smul, one_smul]

/-- The correction loses no rank where the change of the residual is not orthogonal to it. -/
theorem corrected_injective {H : Matrix (Fin n) (Fin n) ℚ} {g g' : Fin n → ℚ}
    (hH : ∀ v, H *ᵥ v = 0 → v = 0) (ho : (g' - g) ⬝ᵥ g ≠ 0)
    (hd : (g' - g) ⬝ᵥ (g' - g) ≠ 0) {v : Fin n → ℚ}
    (hv : corrected H (-(H *ᵥ g)) (g' - g) *ᵥ v = 0) : v = 0 := by
  rw [corrected_mulVec] at hv
  have hv := sub_eq_zero.1 (hH _ hv)
  set c := (g' - g) ⬝ᵥ v / (g' - g) ⬝ᵥ (g' - g) with hc
  have hdot : (g' - g) ⬝ᵥ v = c * (g' - g) ⬝ᵥ g' := by
    rw [hv, dotProduct_smul, smul_eq_mul]
  rw [hdot, eq_div_iff hd] at hc
  have hzero : c * ((g' - g) ⬝ᵥ g) = 0 := by
    rw [dotProduct_sub] at hc
    linear_combination -hc
  have hc0 : c = 0 := (mul_eq_zero.1 hzero).resolve_right ho
  rw [hv, hc0, zero_smul]

theorem diagonal_injective {d : Fin n → ℚ} (hd : ∀ i, d i ≠ 0) {v : Fin n → ℚ}
    (hv : diagonal d *ᵥ v = 0) : v = 0 := by
  ext i
  have hi := congrFun hv i
  rw [mulVec_diagonal] at hi
  exact (mul_eq_zero.1 hi).resolve_left (hd i)

end RootFinding.Broyden
