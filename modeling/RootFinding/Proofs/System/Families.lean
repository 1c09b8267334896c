import RootFinding.Proofs.FixedPoint.Vectors
import RootFinding.Proofs.Iteration.ReadBack

/-!
# Vectors as families

A vector is a family of numbers over its places. What the methods for systems do to vectors entry by
entry they do to the members of their families.
-/
namespace RootFinding
variable {n : ℕ}

namespace Grid
variable {α β γ : Type}

abbrev ofFn (u : Fin n → α) : Grid α := .vector (List.ofFn u)

theorem shape_ofFn (u : Fin n → α) : (ofFn u).shape = [n] := by simp

@[simp] theorem map_ofFn (f : α → β) (u : Fin n → α) :
    (ofFn u).map f = ofFn fun i => f (u i) := by
  simp only [ofFn, vector, map, List.map_ofFn, Function.comp_def, List.length_ofFn]

theorem exists_eq_ofFn {a : Grid α} (h : a.shape = [n]) : ∃ u : Fin n → α, a = ofFn u := by
  obtain ⟨u, hu⟩ := RootFinding.exists_eq_ofFn (Grid.length_of_shape h)
  exact ⟨u, by rw [ofFn, ← hu, ← Grid.eq_vector h]⟩

theorem zipWith?_ofFn (f : α → β → γ) (u : Fin n → α) (v : Fin n → β) :
    (ofFn u).zipWith? f (ofFn v) = some (ofFn fun i => f (u i) (v i)) := by
  have hshape : (ofFn u).shape = (ofFn v).shape := by simp
  obtain ⟨c, hc, hs, he⟩ := Grid.zipWith?_of_shape_eq f _ _ hshape
  rw [Grid.entries_vector, Grid.entries_vector, zipWith_ofFn] at he
  rw [hc, Grid.eq_vector (hs.trans (Grid.shape_ofFn u)), he]

end Grid

theorem Newton.isRoot_ofFn {α : Type} [Scalar α] {t u : Fin n → α} :
    Newton.isRoot (List.ofFn t) (List.ofFn u) = true ↔ ∀ i, Scalar.abs (u i) < t i := by
  rw [isRoot, zipWith_ofFn, List.all_eq_true, List.forall_mem_ofFn_iff]
  simp

namespace Sand
variable {α β : Type}

theorem combine_ofFn (f : α → α → β) (u v : Fin n → α) :
    combine f (.ofFn u) (.ofFn v) = .ok (.ofFn fun i => f (u i) (v i)) := by
  rw [combine, Grid.zipWith?_ofFn]

variable [Scalar α]

theorem isRoot_ofFn (t u : Fin n → α) :
    isRoot (.ofFn t) (.ofFn u) = .ok (Newton.isRoot (List.ofFn t) (List.ofFn u)) := by
  rw [isRoot, combine_ofFn, Newton.isRoot, zipWith_ofFn]
  rfl

theorem stage_ofFn (c : α) (x k : Fin n → α) :
    stage c (.ofFn x) (.ofFn k) = .ok (.ofFn fun i => x i - c * k i) := by
  rw [stage, Grid.map_ofFn, combine_ofFn]

theorem step_ofFn (x k₁ k₂ k₃ k₄ : Fin n → α) :
    step (.ofFn x) (.ofFn k₁) (.ofFn k₂) (.ofFn k₃) (.ofFn k₄) =
      .ok (.ofFn fun i => x i - (k₁ i + 2 * (k₂ i + k₃ i) + k₄ i) / 6) := by
  simp only [step, combine_ofFn, Grid.map_ofFn, bind, Except.bind]

end Sand
end RootFinding
