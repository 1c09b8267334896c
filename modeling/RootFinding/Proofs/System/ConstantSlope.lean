import Mathlib.Tactic.NormNum
import RootFinding.Proofs.FixedPoint.Stages
import RootFinding.Proofs.Linear.Exact
import RootFinding.Proofs.System.Families

/-!
# Constant slopes

Where a system has the same matrix of slopes everywhere, the four corrections of a step along the
flow are equal, and the step is that of Newton's method. Over exact fractions both methods then make
the same calls and end alike, also where the matrix is singular.
-/
namespace RootFinding
open Iteration Search
variable {n : ℕ}

namespace Grid
variable {α : Type}

theorem pieces_flatten {k : ℕ} {xss : List (List α)} (h : ∀ xs ∈ xss, xs.length = k) :
    pieces k xss.length xss.flatten = xss := by
  induction xss with
  | nil => rfl
  | cons xs xss ih =>
    obtain ⟨hxs, hxss⟩ := List.forall_mem_cons.1 h
    rw [List.length_cons, pieces, List.flatten_cons, ← hxs, List.take_left, List.drop_left, hxs,
      ih hxss]

def ofMatrix (A : Matrix (Fin n) (Fin n) ℚ) : Grid ℚ where
  shape := [n, n]
  entries := (Vec.rows A).flatten
  length_entries := by
    simp [Vec.rows, extent, List.length_flatten, Function.comp_def, List.map_ofFn]

end Grid

section Solving
variable (A : Matrix (Fin n) (Fin n) ℚ) (g : Fin n → ℚ)

theorem Jacobian.rows_ofMatrix : Jacobian.rows n (.ofMatrix A) = Vec.rows A := by
  have hrows : ∀ row ∈ Vec.rows A, row.length = n := by
    rw [Vec.rows, List.forall_mem_ofFn_iff]
    exact fun i => List.length_ofFn
  have hpieces := Grid.pieces_flatten hrows
  rwa [show (Vec.rows A).length = n from List.length_ofFn] at hpieces

theorem Jacobian.squareSize?_square : Jacobian.squareSize? [n, n] = some n := if_pos rfl

theorem Jacobian.ofGrid_ofMatrix :
    Jacobian.ofGrid (.ofMatrix A) = .ok (.full n (.ofMatrix A) rfl) := by
  unfold Jacobian.ofGrid
  dsimp only
  split
  · rename_i m h
    obtain rfl : n = m := Option.some.inj (squareSize?_square.symm.trans h)
    rfl
  · rename_i h
    rw [show ((Grid.ofMatrix A).withRank 2).shape = [n, n] from rfl, squareSize?_square] at h
    cases h

theorem Jacobian.solve_ofMatrix :
    (Jacobian.full n (.ofMatrix A) rfl).solve (.ofFn g) =
      (Linear.exactSolution A g).map .vector := by
  simp only [Jacobian.solve, Grid.shape_ofFn, if_true, rows_ofMatrix, Grid.entries_vector,
    Linear.solve_eq_exactSolution]
  rfl

theorem Newton.correction_ofMatrix :
    Newton.correction (.ofMatrix A) (List.ofFn g) = Linear.exactSolution A g := by
  have hsize : Jacobian.squareSize? ((Grid.ofMatrix A).withRank 2).shape = some n :=
    Jacobian.squareSize?_square
  rw [Newton.correction, hsize, ← Linear.solve_eq_exactSolution, ← Jacobian.rows_ofMatrix]
  rfl

end Solving

namespace Sand
variable {A : Matrix (Fin n) (Fin n) ℚ} {x g k : Fin n → ℚ}

theorem step_same :
    step (.ofFn x) (.ofFn k) (.ofFn k) (.ofFn k) (.ofFn k) = .ok (.ofFn (x - k)) := by
  have hweights : ∀ i, x i - (k i + 2 * (k i + k i) + k i) / 6 = (x - k) i := by
    intro i
    rw [Pi.sub_apply]
    ring
  rw [step_ofFn, ← funext hweights]

end Sand

/-- A run of Newton's method and one along the flow that make the same calls and end alike, with the
point as a vector, or fail for one cause. -/
structure Coincide
    (newton : Trace (List ℚ) (List ℚ × List ℚ) (List ℚ × List ℚ) (Ending (List ℚ)))
    (flow : Trace (Grid ℚ) (Grid ℚ) (Grid ℚ × Grid ℚ) (Ending (Grid ℚ))) : Prop where
  evaluations : flow.evaluations = newton.evaluations.map .vector
  outcome : flow.outcome = newton.outcome.map fun e => { e with point := .vector e.point }

section Callers
variable (value : Nat → Grid ℚ → Except Failure (Grid ℚ)) (A : Matrix (Fin n) (Fin n) ℚ)
  (shown : Nat → Except Failure Bool)

/-- The caller of Newton's method with a function and the same matrix everywhere. -/
def Newton.constantCaller :
    Caller (List ℚ) (Grid ℚ) (List ℚ × List ℚ) (Grid ℚ) (List ℚ × List ℚ) where
  value number x := value number (.vector x)
  slope _ _ := .ok (.ofMatrix A)
  shows note := shown note.level

/-- The caller along the flow with a function and the dense Jacobian of the same matrix
everywhere. -/
def Sand.constantCaller :
    Caller (Grid ℚ) (Grid ℚ) (Grid ℚ) (Sand.Slope ℚ) (Grid ℚ × Grid ℚ) where
  value := value
  slope _ _ := do return .ok (← Jacobian.ofGrid (.ofMatrix A))
  shows note := shown note.level

end Callers

section Runs
variable {value : Nat → Grid ℚ → Except Failure (Grid ℚ)} {A : Matrix (Fin n) (Fin n) ℚ}
  {shown : Nat → Except Failure Bool} {evals : Array (List ℚ)} {points sites : Array (Grid ℚ)}
  {notes : Array (Note (Grid ℚ × Grid ℚ))} {x g k : Fin n → ℚ}

namespace Sand

theorem runFrom_correction (z : Grid ℚ) (next : Grid ℚ → Searching ℚ) :
    runFrom (constantCaller value A shown) points sites notes (correction z (.ofFn g) next) =
      runFrom (constantCaller value A shown) points (sites.push z) notes
        (attempt ((Linear.exactSolution A g).map .vector) next) := by
  have hslope : (constantCaller value A shown).slope sites.size z =
      .ok (.ok (.full n (.ofMatrix A) rfl)) := by
    rw [constantCaller, Jacobian.ofGrid_ofMatrix]
    rfl
  rw [correction, runFrom, hslope]
  dsimp only
  rw [Jacobian.solve_ofMatrix]

/-- A step along the flow is a full step of Newton's method where the matrix has an inverse. -/
theorem runFrom_flow_ok (hk : Linear.exactSolution A g = .ok (List.ofFn k))
    (next : Grid ℚ → Searching ℚ) :
    runFrom (constantCaller value A shown) points sites notes (flow (.ofFn x) (.ofFn g) next) =
      runFrom (constantCaller value A shown) points
        ((((sites.push (.ofFn x)).push (.ofFn (x - (Scalar.half : ℚ) • k))).push
          (.ofFn (x - (Scalar.half : ℚ) • k))).push (.ofFn (x - k)))
        notes (next (.ofFn (x - k))) := by
  have hcorrection : ∀ (sites : Array (Grid ℚ)) (z : Grid ℚ) (next : Grid ℚ → Searching ℚ),
      runFrom (constantCaller value A shown) points sites notes (correction z (.ofFn g) next) =
        runFrom (constantCaller value A shown) points (sites.push z) notes (next (.ofFn k)) := by
    intro sites z next
    rw [runFrom_correction, hk]
    rfl
  rw [flow, hcorrection, stage_ofFn, attempt_ok, hcorrection, stage_ofFn, attempt_ok, hcorrection,
    combine_ofFn, attempt_ok, hcorrection, step_same, attempt_ok]
  rfl

theorem runFrom_flow_error {cause : Failure} (hk : Linear.exactSolution A g = .error cause)
    (next : Grid ℚ → Searching ℚ) :
    runFrom (constantCaller value A shown) points sites notes (flow (.ofFn x) (.ofFn g) next) =
      ⟨points, sites.push (.ofFn x), notes, .error cause⟩ := by
  rw [flow, runFrom_correction, hk]
  rfl

end Sand

section Coincide
variable {newton : Newton.Searching ℚ} {flow : Sand.Searching ℚ}

/-- Searches whose runs coincide after the same calls, whatever else was seen before. -/
def CoincideFrom (value : Nat → Grid ℚ → Except Failure (Grid ℚ)) (A : Matrix (Fin n) (Fin n) ℚ)
    (shown : Nat → Except Failure Bool) (evals : Array (List ℚ)) (newton : Newton.Searching ℚ)
    (flow : Sand.Searching ℚ) : Prop :=
  ∀ slopes notes sites notes', Coincide
    (runFrom (Newton.constantCaller value A shown) evals slopes notes newton)
    (runFrom (Sand.constantCaller value A shown) (evals.map .vector) sites notes' flow)

theorem coincide_fail (cause : Failure) :
    CoincideFrom value A shown evals (.fail cause) (.fail cause) :=
  fun _ _ _ _ => ⟨rfl, rfl⟩

theorem coincide_done (converged : Bool) (iterations evaluations : Nat) :
    CoincideFrom value A shown evals (.done ⟨List.ofFn x, converged, iterations, evaluations⟩)
      (.done ⟨.ofFn x, converged, iterations, evaluations⟩) :=
  fun _ _ _ _ => ⟨rfl, rfl⟩

theorem coincide_report {note : Note (List ℚ × List ℚ)} {note' : Note (Grid ℚ × Grid ℚ)}
    (hlevel : note'.level = note.level) (h : CoincideFrom value A shown evals newton flow) :
    CoincideFrom value A shown evals (.report note newton) (.report note' flow) := by
  intro slopes notes sites notes'
  have hshows : (Sand.constantCaller value A shown).shows note' =
      (Newton.constantCaller value A shown).shows note := congrArg shown hlevel
  rw [runFrom, runFrom, hshows]
  cases (Newton.constantCaller value A shown).shows note with
  | ok visible => cases visible <;> exact h ..
  | error cause => exact ⟨rfl, rfl⟩

theorem coincide_evaluate {next : List ℚ → Newton.Searching ℚ} {next' : Grid ℚ → Sand.Searching ℚ}
    (h : ∀ g : Fin n → ℚ, CoincideFrom value A shown (evals.push (List.ofFn x))
      (next (List.ofFn g)) (next' (.ofFn g))) :
    CoincideFrom value A shown evals (measure (List.ofFn x) next)
      (.evaluate (.ofFn x) fun fx => if fx.shape = (Grid.ofFn x).shape then next' fx
        else .fail (.resultShape (Grid.ofFn x).shape fx.shape)) := by
  intro slopes notes sites notes'
  have hvalue : (Sand.constantCaller value A shown).value (evals.map Grid.vector).size (.ofFn x) =
      (Newton.constantCaller value A shown).value evals.size (List.ofFn x) := by
    rw [Array.size_map]
    rfl
  rw [Iteration.measure, runFrom, runFrom, hvalue, ← Array.map_push]
  cases (Newton.constantCaller value A shown).value evals.size (List.ofFn x) with
  | error cause => exact ⟨rfl, rfl⟩
  | ok y =>
    by_cases hshape : y.shape = [(List.ofFn x).length]
    · simp only [Grid.shape_vector, hshape, if_true]
      obtain ⟨g, rfl⟩ := Grid.exists_eq_ofFn (hshape.trans (Grid.shape_ofFn x))
      exact h g ..
    · simp only [Grid.shape_vector, hshape, if_false]
      exact coincide_fail ..

/-- A step of each method: the corrections are equal or fail for one cause. -/
theorem coincide_step {next : List ℚ → Newton.Searching ℚ} {next' : Grid ℚ → Sand.Searching ℚ}
    (h : ∀ y : Fin n → ℚ,
      CoincideFrom value A shown evals (next (List.ofFn y)) (next' (.ofFn y))) :
    CoincideFrom value A shown evals
      (.slope (List.ofFn x, List.ofFn g) fun slope =>
        .attempt (Newton.correction slope (List.ofFn g)) fun δ => next (Vec.sub (List.ofFn x) δ))
      (Sand.flow (.ofFn x) (.ofFn g) next') := by
  intro slopes notes sites notes'
  have hslope : (Newton.constantCaller value A shown).slope slopes.size
      (List.ofFn x, List.ofFn g) = .ok (.ofMatrix A) := rfl
  rw [runFrom, hslope]
  dsimp only
  rw [Newton.correction_ofMatrix]
  by_cases hdet : A.det = 0
  · have hk : Linear.exactSolution A g = .error .singular := if_pos hdet
    rw [Sand.runFrom_flow_error hk, hk]
    exact ⟨rfl, rfl⟩
  · have hk : Linear.exactSolution A g = .ok (List.ofFn (A⁻¹.mulVec g)) := if_neg hdet
    rw [Sand.runFrom_flow_ok hk, hk, attempt_ok, Vec.sub_ofFn]
    exact h ..

/-- The iterations of both methods after as many others, by induction on those to go. -/
theorem coincide_iterate (t : Fin n → ℚ) (left done : Nat) :
    CoincideFrom value A shown evals (Newton.iterate (List.ofFn t) left done (List.ofFn x))
      (Sand.iterate (.ofFn t) left done (.ofFn x)) := by
  induction left generalizing done evals x with
  | zero => exact coincide_report rfl (coincide_done _ _ _)
  | succ left ih =>
    refine coincide_evaluate fun g => coincide_report rfl ?_
    rw [Sand.isRoot_ofFn, attempt_ok]
    cases Newton.isRoot (List.ofFn t) (List.ofFn g) with
    | true => exact coincide_report rfl (coincide_done _ _ _)
    | false => exact coincide_step fun y => ih (done + 1)

end Coincide
end Runs

/-- With the same matrix of slopes everywhere, Newton's method and the flow of its correction make
the same calls and end alike: at the same point, both converged or both not, after as many
iterations and calls, or for the same cause. The correction is the exact solution, and it fails
where the matrix is singular. -/
theorem constant_slope_coincide (value : Nat → Grid ℚ → Except Failure (Grid ℚ))
    (A : Matrix (Fin n) (Fin n) ℚ) (shown : Nat → Except Failure Bool) (limit : Nat)
    (t x : Fin n → ℚ) :
    Coincide
        ((Newton.search limit (List.ofFn t) (List.ofFn x)).run
          (Newton.constantCaller value A shown))
        ((Sand.search limit (List.ofFn t) (List.ofFn x)).run
          (Sand.constantCaller value A shown)) ∧
      ∀ g, Newton.correction (.ofMatrix A) (List.ofFn g) = Linear.exactSolution A g := by
  have hsearch : CoincideFrom value A shown #[] (Newton.search limit (List.ofFn t) (List.ofFn x))
      (Sand.search limit (List.ofFn t) (List.ofFn x)) :=
    coincide_report rfl (coincide_iterate t limit 0)
  have hrun := hsearch #[] #[] #[] #[]
  rw [Array.map_empty] at hrun
  exact ⟨hrun, Newton.correction_ofMatrix A⟩

/-- A linear system of two equations is solved at once along the flow. -/
example : ((Sand.search 2 [1 / 10, 1 / 10] [0, 0]).run (Sand.constantCaller
    (fun _ x => .ok (.vector (Vec.sub (Vec.apply [[2, 1], [0, 4]] x.entries) [3, 4])))
    !![2, 1; 0, 4] fun _ => .ok false)).outcome.toOption.map
      (fun e => (e.point.entries, e.converged, e.iterations, e.evaluations)) =
    some ([1, 1], true, 1, 2) := by
  decide +kernel

end RootFinding
