import RootFinding.Proofs.Iteration.Shape
import RootFinding.Proofs.Value.Leaves
import RootFinding.Session.Run

/-!
# Answers read back

An answer in the form of the start is read back as the point that it came from, a single number as
a single number, and a tolerance stretches to it in the same way as before.
-/
namespace RootFinding
open Number

theorem Grid.eq_vector {α : Type} {a : Grid α} {n : Nat} (h : a.shape = [n]) :
    a = .vector a.entries := by
  have hlen := Grid.length_of_shape h
  cases a
  simp_all [Grid.vector]

theorem Grid.shape_of_broadcast? {α : Type} {a t : Grid α} {shape : List Nat}
    (h : a.broadcast? shape = some t) : t.shape = shape := by
  unfold Grid.broadcast? Grid.ofEntries? at h
  split at h
  · rename_i hs
    cases h
    exact hs
  split at h
  · split at h
    · cases h
      rfl
    · cases h
  · cases h

namespace Value

theorem map_ofEntries_pieces (xs : List Float) :
    (Grid.pieces (extent []) xs.length xs).map (ofEntries ofFloat []) = xs.map ofFloat := by
  induction xs with
  | nil => rfl
  | cons x xs ih =>
    change ofFloat x :: (Grid.pieces (extent []) xs.length xs).map (ofEntries ofFloat []) = _
    rw [ih, List.map_cons]

theorem ofGrid_vector (xs : List Float) : ofGrid (.vector xs) = .list (xs.map ofFloat) :=
  congrArg Value.list (map_ofEntries_pieces xs)

theorem toGrid_list_ofFloat (xs : List Float) :
    (Value.list (xs.map ofFloat)).toGrid = .ok (.vector xs) := by
  have hentries : (xs.map ofFloat).mapM toEntry = .ok xs := by
    induction xs with
    | nil => rfl
    | cons x xs ih =>
      rw [List.map_cons, List.mapM_cons, ih]
      rfl
  have hleaves : (Value.list (xs.map ofFloat)).toLeaves = .ok ((Grid.vector xs).map ofFloat) :=
    toLeaves_list_map (fun _ => ⟨rfl, rfl⟩) xs
  simp only [toGrid, hleaves, bind, Except.bind, Grid.map, Grid.entries_vector, hentries]
  simp [Grid.ofEntries?, extent, Grid.vector]

end Value

theorem Start.ofValue_restore {x : List Float} {single : Bool} {v : Value}
    (h : restore (.vector x) single = .ok v) : Start.ofValue v = .ok ⟨x, single⟩ := by
  unfold restore at h
  cases single with
  | true =>
    simp only [if_true, Grid.entries_vector] at h
    split at h
    · cases h
      rfl
    · cases h
  | false =>
    cases h
    rw [Value.ofGrid_vector]
    unfold Start.ofValue
    rw [Value.toGrid_list_ofFloat]
    rfl

theorem restore_injective {p q : List Float} {single : Bool} {v : Value}
    (hp : restore (.vector p) single = .ok v) (hq : restore (.vector q) single = .ok v) :
    p = q := by
  have hstart := (Start.ofValue_restore hp).symm.trans (Start.ofValue_restore hq)
  cases hstart
  rfl

theorem Start.length_of_single {v : Value} {s : Start} (h : Start.ofValue v = .ok s)
    (hs : s.single = true) : s.point.length = 1 := by
  obtain ⟨a, -, h⟩ := exists_of_bind_eq_ok h
  dsimp only at h
  split at h
  · cases h
    have hshape : a.shape = [] := List.eq_nil_of_length_eq_zero (by simpa [Grid.rank] using hs)
    change a.entries.length = 1
    rw [a.length_entries, hshape]
    rfl
  · cases h

theorem Start.length_of_tolerance {s : Start} {v : Value} {t : List Float}
    (h : s.tolerance v = .ok t) : t.length = s.point.length := by
  unfold Start.tolerance at h
  dsimp only at h
  split at h
  · split at h
    · rename_i hb
      cases h
      exact Grid.length_of_shape (Grid.shape_of_broadcast? hb)
    · cases h
  · cases h

theorem Start.tolerance_congr {s s' : Start} (h : s.point.length = s'.point.length) (v : Value) :
    s.tolerance v = s'.tolerance v := by
  unfold Start.tolerance
  rw [h]

/-- A point with the number of components of a start can take its form. -/
theorem exists_restore {x : List Float} {single : Bool} (h : single = true → x.length = 1) :
    ∃ v, restore (.vector x) single = .ok v := by
  cases single with
  | false => exact ⟨_, rfl⟩
  | true =>
    obtain ⟨a, rfl⟩ := List.length_eq_one_iff.1 (h rfl)
    exact ⟨_, rfl⟩

end RootFinding
