/-!
# Grids

A grid holds its entries row by row under a shape: no extents for a single entry, one for a vector,
two for a matrix. Two grids combine entry by entry once their shapes agree from the last axis on,
where an axis of extent one repeats.
-/
namespace RootFinding

def extent (shape : List Nat) : Nat := shape.foldr (· * ·) 1

/-- A rectangular array of any number of axes. -/
structure Grid (α : Type) where
  shape : List Nat
  entries : List α
  length_entries : entries.length = extent shape

namespace Grid
variable {α β γ : Type}

def ofEntries? (shape : List Nat) (entries : List α) : Option (Grid α) :=
  if h : entries.length = extent shape then some ⟨shape, entries, h⟩ else none

def vector (xs : List α) : Grid α := ⟨[xs.length], xs, by simp [extent]⟩

def single (x : α) : Grid α := ⟨[], [x], rfl⟩

def size (a : Grid α) : Nat := a.entries.length

def rank (a : Grid α) : Nat := a.shape.length

def map (f : α → β) (a : Grid α) : Grid β :=
  ⟨a.shape, a.entries.map f, by rw [List.length_map, a.length_entries]⟩

@[simp] theorem shape_map (f : α → β) (a : Grid α) : (a.map f).shape = a.shape := rfl
@[simp] theorem shape_vector (xs : List α) : (vector xs).shape = [xs.length] := rfl
@[simp] theorem entries_vector (xs : List α) : (vector xs).entries = xs := rfl

theorem extent_replicate_one (n : Nat) (shape : List Nat) :
    extent (List.replicate n 1 ++ shape) = extent shape := by
  induction n with
  | zero => rfl
  | succ n ih => simpa [List.replicate_succ, extent] using ih

/-- Put axes of extent one in front until there are at least `rank` axes. -/
def withRank (rank : Nat) (a : Grid α) : Grid α :=
  ⟨List.replicate (rank - a.rank) 1 ++ a.shape, a.entries, by
    rw [extent_replicate_one, a.length_entries]⟩

/-- Cut a list into `count` pieces of equal length. -/
def pieces (length : Nat) : Nat → List α → List (List α)
  | 0, _ => []
  | count + 1, xs => xs.take length :: pieces length count (xs.drop length)

/-- The slices along the first axis; a single entry has none. -/
def slices? (a : Grid α) : Option (List (Grid α)) :=
  match a.shape with
  | [] => none
  | n :: shape => some ((pieces (extent shape) n a.entries).filterMap (ofEntries? shape))

def padShape (rank : Nat) (shape : List Nat) : List Nat :=
  List.replicate (rank - shape.length) 1 ++ shape

def commonExtent? (m n : Nat) : Option Nat :=
  if m = n then some m else if m = 1 then some n else if n = 1 then some m else none

def commonShape? (s t : List Nat) : Option (List Nat) :=
  let rank := max s.length t.length
  ((padShape rank s).zip (padShape rank t)).mapM fun (m, n) => commonExtent? m n

/-- Repeat entries along axes of extent one, from a shape to another of as many axes. -/
def spread : List Nat → List Nat → List α → List α
  | m :: s, n :: t, xs =>
    let row := ((pieces (extent s) m xs).map (spread s t)).flatten
    if m = n then row else (List.replicate n row).flatten
  | _, _, xs => xs

def broadcast? (shape : List Nat) (a : Grid α) : Option (Grid α) :=
  if a.shape = shape then some a
  else if commonShape? a.shape shape = some shape then
    ofEntries? shape (spread (padShape shape.length a.shape) shape a.entries)
  else none

/-- Combine two grids entry by entry, where their shapes have a common one. -/
def zipWith? (f : α → β → γ) (a : Grid α) (b : Grid β) : Option (Grid γ) :=
  if h : a.shape = b.shape then
    some ⟨a.shape, List.zipWith f a.entries b.entries, by
      rw [List.length_zipWith, a.length_entries, b.length_entries, h, Nat.min_self]⟩
  else do
    let shape ← commonShape? a.shape b.shape
    let a ← a.broadcast? shape
    let b ← b.broadcast? shape
    ofEntries? shape (List.zipWith f a.entries b.entries)

theorem zipWith?_of_shape_eq (f : α → β → γ) (a : Grid α) (b : Grid β) (h : a.shape = b.shape) :
    ∃ c, a.zipWith? f b = some c ∧ c.shape = a.shape ∧
      c.entries = List.zipWith f a.entries b.entries := by
  simp [zipWith?, h]

/-- A shape as it is written in messages: a lone extent keeps a comma. -/
def shapeText : List Nat → String
  | [n] => "(" ++ toString n ++ ",)"
  | ns => "(" ++ ", ".intercalate (ns.map toString) ++ ")"

end Grid
end RootFinding
