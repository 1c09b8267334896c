import RootFinding.Scalar

/-!
# Vectors and matrices

Vectors are lists of equal length and matrices lists of rows. Sums start from zero and run from the
left.
-/
namespace RootFinding.Vec
variable {α : Type} [Scalar α]

def add (x y : List α) : List α := List.zipWith (· + ·) x y

def sub (x y : List α) : List α := List.zipWith (· - ·) x y

def mul (x y : List α) : List α := List.zipWith (· * ·) x y

def div (x y : List α) : List α := List.zipWith (· / ·) x y

def scale (c : α) (x : List α) : List α := x.map (c * ·)

def sum (x : List α) : α := x.foldl (· + ·) 0

def dot (x y : List α) : α := sum (mul x y)

def apply (h : List (List α)) (x : List α) : List α := h.map (dot · x)

/-- The matrix with the entries `u i * v j`. -/
def outer (u v : List α) : List (List α) := u.map fun a => scale a v

def diagonal (d : List α) : List (List α) :=
  d.mapIdx fun i a => d.mapIdx fun j _ => if i = j then a else 0

def addMatrix (h k : List (List α)) : List (List α) := List.zipWith add h k

@[simp] theorem length_add (x y : List α) : (add x y).length = min x.length y.length := by
  simp [add]

@[simp] theorem length_sub (x y : List α) : (sub x y).length = min x.length y.length := by
  simp [sub]

@[simp] theorem length_div (x y : List α) : (div x y).length = min x.length y.length := by
  simp [div]

@[simp] theorem length_scale (c : α) (x : List α) : (scale c x).length = x.length := by
  simp [scale]

@[simp] theorem length_apply (h : List (List α)) (x : List α) : (apply h x).length = h.length := by
  simp [apply]

@[simp] theorem length_diagonal (d : List α) : (diagonal d).length = d.length := by
  simp [diagonal]

end RootFinding.Vec
