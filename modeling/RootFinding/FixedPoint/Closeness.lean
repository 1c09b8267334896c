import RootFinding.Grid.Arithmetic
import RootFinding.Scalar

/-!
# Closeness of successive points

Two numbers are close when they differ by less than an absolute tolerance plus a relative one times
the larger magnitude; vectors are when all components are. Undefined numbers are close to nothing.
Arrays of any kind of numbers are tested in the arithmetic of that kind.
-/
namespace RootFinding

structure Tolerance (α : Type) where
  absolute : α
  relative : α

namespace Tolerance
variable {α : Type} [Scalar α]

/-- The largest difference of two numbers, itself excluded, at which they are close. -/
def bound (tol : Tolerance α) (x y : α) : α :=
  tol.absolute + tol.relative * Scalar.maximum (Scalar.abs x) (Scalar.abs y)

def close (tol : Tolerance α) (x y : α) : Bool := Scalar.abs (x - y) < tol.bound x y

def within : List (Tolerance α) → List α → List α → Bool
  | tol :: tols, x :: xs, y :: ys => tol.close x y && within tols xs ys
  | _, _, _ => true

end Tolerance

namespace Closeness
open Typed

def operand : Value → Except Failure Operand
  | .int n => .ok (.int n)
  | .real x => .ok (.real x.value)
  | v => do return .grid (← Typed.ofValue v)

def repetitions : Typed → Except Failure Int
  | .signed a => .ok (a.entries.headD 0).toInt
  | .unsigned a => .ok (a.entries.headD 0).toNat
  | _ => .error .wrongKind

/-- The bound on the differences: the absolute tolerance plus the relative one times the larger
magnitudes. A list is not multiplied by a lone word but repeated, and then takes only a list in
front; a repeated text is no bound at all. -/
def bound (absolute relative : Value) (magnitudes : Typed) : Except Failure Typed :=
  match relative, magnitudes.shape with
  | .list items, [] => do
    let count ← repetitions magnitudes
    relative.checkRepetition count
    match absolute with
    | .list front =>
      if items.isEmpty then Typed.ofValue absolute
      else Typed.ofValue (.list (front ++ (List.replicate count.toNat items).flatten))
    | _ => throw .wrongKind
  | .text _, [] => do
    relative.checkRepetition (← repetitions magnitudes)
    throw .wrongKind
  | _, _ => do
    let scaled ← apply multiplication (← operand relative) (.grid magnitudes)
    apply addition (← operand absolute) (loosen scaled)

/-- Whether all entries of `x` and `y` differ by less than an absolute tolerance plus a relative one
times the larger magnitude. -/
def within (x y absolute relative : Value) : Except Failure Bool := do
  let a ← Typed.ofValue x
  let b ← Typed.ofValue y
  let (ma, mb) ← settle (loosen (← magnitude a)) (loosen (← magnitude b))
  let limit ← bound absolute relative (← larger ma mb)
  let difference ← narrow (loosen (← combine subtraction a b))
  let below ← less (← magnitude difference) limit
  return below.entries.all id

end Closeness
end RootFinding
