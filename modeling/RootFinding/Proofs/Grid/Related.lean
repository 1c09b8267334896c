import Mathlib.Data.List.Forall2
import RootFinding.Grid.Basic

/-!
# Related grids

Grids whose entries are related one by one stay so when they are repeated to a shape and combined:
how grids combine goes by their shapes and never by their entries.
-/
namespace RootFinding.Grid
variable {α α' β β' γ γ' : Type} {R : α → α' → Prop} {S : β → β' → Prop} {T : γ → γ' → Prop}

/-- Grids of one shape with entries that are related. -/
structure Related (R : α → α' → Prop) (a : Grid α) (b : Grid α') : Prop where
  shape : a.shape = b.shape
  entries : List.Forall₂ R a.entries b.entries

theorem related_vector {xs : List α} {ys : List α'} (h : List.Forall₂ R xs ys) :
    Related R (vector xs) (vector ys) :=
  ⟨congrArg (fun n => [n]) h.length_eq, h⟩

theorem related_of_shape {a : Grid α} {b : Grid α'} (h : a.shape = b.shape) :
    Related (fun _ _ => True) a b := by
  refine ⟨h, List.forall₂_iff_get.2 ⟨?_, fun _ _ _ => trivial⟩⟩
  rw [a.length_entries, b.length_entries, h]

theorem related_self {R : α → α → Prop} (h : ∀ x, R x x) (a : Grid α) : Related R a a :=
  ⟨rfl, List.forall₂_same.2 fun x _ => h x⟩

theorem rel_ofEntries? (shape : List Nat) {xs : List α} {ys : List α'}
    (h : List.Forall₂ R xs ys) :
    Option.Rel (Related R) (ofEntries? shape xs) (ofEntries? shape ys) := by
  have hlength := h.length_eq
  unfold ofEntries?
  by_cases hx : xs.length = extent shape
  · rw [dif_pos hx, dif_pos (hlength ▸ hx)]
    exact .some ⟨rfl, h⟩
  · rw [dif_neg hx, dif_neg (hlength ▸ hx)]
    exact .none

theorem forall₂_pieces (length count : Nat) {xs : List α} {ys : List α'}
    (h : List.Forall₂ R xs ys) :
    List.Forall₂ (List.Forall₂ R) (pieces length count xs) (pieces length count ys) := by
  induction count generalizing xs ys with
  | zero => exact .nil
  | succ count ih => exact .cons (List.forall₂_take length h) (ih (List.forall₂_drop length h))

theorem forall₂_replicate (n : Nat) {x : α} {y : α'} (h : R x y) :
    List.Forall₂ R (List.replicate n x) (List.replicate n y) := by
  induction n with
  | zero => exact .nil
  | succ n ih => exact .cons h ih

theorem forall₂_spread (s t : List Nat) {xs : List α} {ys : List α'}
    (h : List.Forall₂ R xs ys) : List.Forall₂ R (spread s t xs) (spread s t ys) := by
  induction s generalizing t xs ys with
  | nil => exact h
  | cons m s ih =>
    cases t with
    | nil => exact h
    | cons n t =>
      have hrow := List.rel_flatten (List.rel_map (fun _ _ hx => ih t hx)
        (forall₂_pieces (extent s) m h))
      rw [spread, spread]
      split
      · exact hrow
      · exact List.rel_flatten (forall₂_replicate n hrow)

theorem rel_broadcast? (shape : List Nat) {a : Grid α} {b : Grid α'} (h : Related R a b) :
    Option.Rel (Related R) (a.broadcast? shape) (b.broadcast? shape) := by
  unfold broadcast?
  rw [h.shape]
  split
  · exact .some h
  split
  · exact rel_ofEntries? shape (forall₂_spread _ shape h.entries)
  · exact .none

theorem forall₂_zipWith {f : α → β → γ} {f' : α' → β' → γ'}
    (hf : ∀ x x' y y', R x x' → S y y' → T (f x y) (f' x' y')) {xs : List α} {xs' : List α'}
    {ys : List β} {ys' : List β'} (hx : List.Forall₂ R xs xs') (hy : List.Forall₂ S ys ys') :
    List.Forall₂ T (List.zipWith f xs ys) (List.zipWith f' xs' ys') := by
  induction hx generalizing ys ys' with
  | nil => exact .nil
  | cons hx _ ih =>
    cases hy with
    | nil => exact .nil
    | cons hy hys => exact .cons (hf _ _ _ _ hx hy) (ih hys)

theorem rel_zipWith? (f : α → β → γ) (f' : α' → β' → γ')
    (hf : ∀ x x' y y', R x x' → S y y' → T (f x y) (f' x' y')) {a : Grid α} {a' : Grid α'}
    {b : Grid β} {b' : Grid β'} (ha : Related R a a') (hb : Related S b b') :
    Option.Rel (Related T) (a.zipWith? f b) (a'.zipWith? f' b') := by
  unfold zipWith?
  by_cases h : a.shape = b.shape
  · have h' : a'.shape = b'.shape := by rw [← ha.shape, ← hb.shape, h]
    rw [dif_pos h, dif_pos h']
    exact .some ⟨ha.shape, forall₂_zipWith hf ha.entries hb.entries⟩
  · have h' : a'.shape ≠ b'.shape := by rwa [← ha.shape, ← hb.shape]
    rw [dif_neg h, dif_neg h', ha.shape, hb.shape]
    cases commonShape? a'.shape b'.shape with
    | none => exact .none
    | some shape =>
      have hleft := rel_broadcast? shape ha
      have hright := rel_broadcast? shape hb
      simp only [Option.bind_eq_bind, Option.bind_some]
      generalize a.broadcast? shape = c, a'.broadcast? shape = c' at hleft
      generalize b.broadcast? shape = d, b'.broadcast? shape = d' at hright
      cases hleft with
      | none => exact .none
      | some hc =>
        cases hright with
        | none => exact .none
        | some hd => exact rel_ofEntries? shape (forall₂_zipWith hf hc.entries hd.entries)

end RootFinding.Grid
