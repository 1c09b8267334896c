import RootFinding.Value.Numeric

/-!
# Lists of single entries

A list whose items are single entries is a vector of them, whatever their kind.
-/
namespace RootFinding.Value

variable {α : Type} {f : α → Value}

structure IsEntry (v : Value) : Prop where
  shape?_eq : v.shape? = some []
  leaves_eq : v.leaves = [v]

theorem shapes?_map (h : ∀ a, (f a).IsEntry) (l : List α) :
    shapes? (l.map f) = some (l.map fun _ => []) := by
  induction l with
  | nil => rfl
  | cons a l ih =>
    rw [List.map_cons, shapes?, ih, (h a).shape?_eq]
    rfl

theorem leavesOf_map (h : ∀ a, (f a).IsEntry) (l : List α) : leavesOf (l.map f) = l.map f := by
  induction l with
  | nil => rfl
  | cons a l ih =>
    rw [List.map_cons, leavesOf, ih, (h a).leaves_eq]
    rfl

theorem shape?_list_map (h : ∀ a, (f a).IsEntry) (l : List α) :
    shape? (.list (l.map f)) = some [l.length] := by
  cases l with
  | nil => rfl
  | cons a l =>
    rw [shape?, shapes?_map h]
    simp

theorem toLeaves_list_map (h : ∀ a, (f a).IsEntry) (l : List α) :
    (Value.list (l.map f)).toLeaves = .ok ((Grid.vector l).map f) := by
  simp [toLeaves, shape?_list_map h, maximalRank, leaves, leavesOf_map h, Grid.ofEntries?, extent,
    Grid.map, Grid.vector]

end RootFinding.Value
