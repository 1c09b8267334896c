import RootFinding.Grid.Arithmetic
import RootFinding.Proofs.Grid.Stretching

/-!
# Grids over common places

Grids that are computed entry by entry from one grid combine entry by entry, and a lone entry
combines with each of theirs.
-/
namespace RootFinding.Grid
variable {α β γ δ : Type}

theorem zipWith?_map (f : α → β → γ) (g : δ → α) (h : δ → β) (p : Grid δ) :
    (p.map g).zipWith? f (p.map h) = some (p.map fun x => f (g x) (h x)) := by
  have hentries : List.zipWith f (p.entries.map g) (p.entries.map h) =
      p.entries.map fun x => f (g x) (h x) := by
    rw [List.zipWith_map, List.zipWith_self]
  simp only [zipWith?, map, dif_pos, hentries]

theorem fits_single (u : List Nat) : List.Forall₂ Fits (padShape u.length []) u := by
  rw [padShape, List.length_nil, Nat.sub_zero, List.append_nil]
  induction u with
  | nil => exact .nil
  | cons n u ih => exact .cons (.inr rfl) ih

theorem broadcast?_single (c : α) (u : List Nat) :
    ∃ a, (single c).broadcast? u = some a ∧ a.shape = u ∧ ∀ x ∈ a.entries, x = c := by
  obtain ⟨a, ha⟩ := exists_broadcast? (a := single c) (fits_single u)
  have hc : Related (fun x _ => x = c) (single c) (single c) := ⟨rfl, .cons rfl .nil⟩
  have hrel := rel_broadcast? u hc
  rw [ha] at hrel
  cases hrel with
  | some h => exact ⟨a, ha, shape_of_broadcast? ha, List.forall₂_same.1 h.entries⟩

theorem zipWith?_single (f : α → β → γ) (c : α) (b : Grid β) :
    (single c).zipWith? f b = some (b.map (f c)) := by
  obtain ⟨a, ha, hshape, hentries⟩ := broadcast?_single c b.shape
  have hzip : List.zipWith f a.entries b.entries = b.entries.map (f c) := by
    have hlength : a.entries.length = b.entries.length := by
      rw [a.length_entries, b.length_entries, hshape]
    refine List.ext_getElem (by simp [hlength]) fun i hi hi' => ?_
    rw [List.getElem_zipWith, List.getElem_map, hentries _ (List.getElem_mem _)]
  have hcommon := commonShape?_of_fits (fits_single b.shape)
  have hself : b.broadcast? b.shape = some b := if_pos rfl
  unfold zipWith?
  split
  · rename_i h
    have hsingle : (single c).broadcast? b.shape = some (single c) := if_pos h
    cases hsingle.symm.trans ha
    simp only [hzip, map, h]
  · change (do
      let shape ← commonShape? [] b.shape
      let a ← (single c).broadcast? shape
      let b ← b.broadcast? shape
      ofEntries? shape (List.zipWith f a.entries b.entries)) = _
    simp only [hcommon, Option.bind_eq_bind, Option.bind_some, ha, hself, hzip]
    rw [ofEntries?, dif_pos (by rw [List.length_map, b.length_entries])]
    rfl

end RootFinding.Grid
