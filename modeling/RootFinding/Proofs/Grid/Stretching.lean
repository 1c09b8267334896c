import RootFinding.Proofs.Grid.Related
import RootFinding.Proofs.Iteration.ReadBack

/-!
# Stretched grids

Two grids combine exactly where their shapes have a common one, and the result has it: each of them
is repeated along the axes where it has a single entry.
-/
namespace RootFinding.Grid
variable {α β γ : Type} {s t u : List Nat}

/-- An axis that agrees with an extent, by itself or repeated. -/
def Fits (m k : Nat) : Prop := m = k ∨ m = 1

theorem fits_of_commonExtent? {m n k : Nat} (h : commonExtent? m n = some k) :
    Fits m k ∧ Fits n k := by
  grind [commonExtent?, Fits]

theorem commonExtent?_of_fits {m k : Nat} (h : Fits m k) : commonExtent? m k = some k := by
  grind [commonExtent?, Fits]

/-- Axes in line have a common shape exactly where each pair has a common extent. -/
theorem fits_of_mapM (hlength : s.length = t.length)
    (h : (s.zip t).mapM (fun (m, n) => commonExtent? m n) = some u) :
    List.Forall₂ Fits s u ∧ List.Forall₂ Fits t u := by
  induction s generalizing t u with
  | nil =>
    obtain rfl := List.eq_nil_of_length_eq_zero hlength.symm
    cases h
    exact ⟨.nil, .nil⟩
  | cons m s ih =>
    cases t with
    | nil => cases hlength
    | cons n t =>
      simp only [List.zip_cons_cons, List.mapM_cons, Option.bind_eq_bind, Option.bind_eq_some_iff]
        at h
      obtain ⟨k, hk, u, hu, h⟩ := h
      cases h
      have haxis := fits_of_commonExtent? hk
      have haxes := ih (Nat.succ.inj hlength) hu
      exact ⟨.cons haxis.1 haxes.1, .cons haxis.2 haxes.2⟩

theorem mapM_of_fits (h : List.Forall₂ Fits s u) :
    (s.zip u).mapM (fun (m, n) => commonExtent? m n) = some u := by
  induction h with
  | nil => rfl
  | cons haxis _ ih => simp [commonExtent?_of_fits haxis, ih]

theorem length_padShape (rank : Nat) (s : List Nat) :
    (padShape rank s).length = max rank s.length := by
  simp [padShape]
  omega

theorem padShape_of_length_le {rank : Nat} (h : rank ≤ s.length) : padShape rank s = s := by
  simp [padShape, Nat.sub_eq_zero_of_le h]

theorem extent_padShape (rank : Nat) (s : List Nat) : extent (padShape rank s) = extent s :=
  extent_replicate_one _ s

theorem fits_of_commonShape? (h : commonShape? s t = some u) :
    List.Forall₂ Fits (padShape u.length s) u ∧ List.Forall₂ Fits (padShape u.length t) u := by
  have hlength : (padShape (max s.length t.length) s).length =
      (padShape (max s.length t.length) t).length := by
    rw [length_padShape, length_padShape]
    omega
  have hfits := fits_of_mapM hlength h
  have hrank : u.length = max s.length t.length := by
    rw [← hfits.1.length_eq, length_padShape]
    omega
  rwa [hrank]

theorem commonShape?_of_fits (h : List.Forall₂ Fits (padShape u.length s) u) :
    commonShape? s u = some u := by
  have hrank : max s.length u.length = u.length := by
    have := h.length_eq
    rw [length_padShape] at this
    omega
  rw [commonShape?, hrank, padShape_of_length_le (Nat.le_refl _)]
  exact mapM_of_fits h

theorem commonShape?_self (s : List Nat) : commonShape? s s = some s :=
  commonShape?_of_fits (by
    rw [padShape_of_length_le (Nat.le_refl _)]
    exact List.forall₂_same.2 fun _ _ => .inl rfl)

theorem commonShape?_vectors (m n : Nat) :
    commonShape? [m] [n] = (commonExtent? m n).map fun k => [k] := by
  change (do let k ← commonExtent? m n; let ks ← some []; some (k :: ks)) = _
  cases commonExtent? m n <;> rfl

theorem length_flatten_pieces {k l count : Nat} {f : List α → List β} {xs : List α}
    (hf : ∀ piece : List α, piece.length = k → (f piece).length = l)
    (h : xs.length = count * k) : ((pieces k count xs).map f).flatten.length = count * l := by
  induction count generalizing xs with
  | zero => simp [pieces]
  | succ count ih =>
    have hle : k ≤ xs.length := h ▸ Nat.le_mul_of_pos_left k count.succ_pos
    have hdrop : (xs.drop k).length = count * k := by
      rw [List.length_drop, h, Nat.succ_mul, Nat.add_sub_cancel]
    rw [pieces, List.map_cons, List.flatten_cons, List.length_append, ih hdrop,
      hf _ (List.length_take_of_le hle), Nat.succ_mul, Nat.add_comm]

theorem length_spread {xs : List α} (h : List.Forall₂ Fits s u) (hx : xs.length = extent s) :
    (spread s u xs).length = extent u := by
  induction h generalizing xs with
  | nil => exact hx
  | @cons m n s u haxis _ ih =>
    have hrow : ((pieces (extent s) m xs).map (spread s u)).flatten.length = m * extent u :=
      length_flatten_pieces (fun _ => ih) hx
    rw [spread]
    split
    · rename_i heq
      exact hrow.trans (congrArg (· * extent u) heq)
    · rename_i hne
      rw [List.length_flatten, List.map_replicate, List.sum_replicate_nat, hrow,
        haxis.resolve_left hne, Nat.one_mul]
      rfl

theorem exists_broadcast? {a : Grid α} (h : List.Forall₂ Fits (padShape u.length a.shape) u) :
    ∃ c, a.broadcast? u = some c := by
  unfold broadcast?
  split
  · exact ⟨a, rfl⟩
  · have hlength := length_spread h ((a.length_entries).trans (extent_padShape ..).symm)
    rw [if_pos (commonShape?_of_fits h), ofEntries?, dif_pos hlength]
    exact ⟨_, rfl⟩

/-- Grids combine exactly where their shapes have a common one, and it is the shape of the
result. -/
theorem map_shape_zipWith? (f : α → β → γ) (a : Grid α) (b : Grid β) :
    (a.zipWith? f b).map shape = commonShape? a.shape b.shape := by
  unfold zipWith?
  split
  · rename_i h
    rw [← h, commonShape?_self]
    rfl
  · cases h : commonShape? a.shape b.shape with
    | none => rfl
    | some u =>
      obtain ⟨hleft, hright⟩ := fits_of_commonShape? h
      obtain ⟨c, hc⟩ := exists_broadcast? hleft
      obtain ⟨d, hd⟩ := exists_broadcast? hright
      have hlength : (List.zipWith f c.entries d.entries).length = extent u := by
        rw [List.length_zipWith, c.length_entries, d.length_entries, shape_of_broadcast? hc,
          shape_of_broadcast? hd, Nat.min_self]
      simp only [Option.bind_eq_bind, Option.bind_some, hc, hd, ofEntries?, dif_pos hlength,
        Option.map_some]

end RootFinding.Grid
