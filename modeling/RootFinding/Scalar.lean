import RootFinding.Number.Double

/-!
# Scalars

The arithmetic that the root finders need. They run on doubles and are reasoned about over exact
fractions; the constant `epsilon` is the spacing of doubles above one in either case.
-/
namespace RootFinding
open Number

class Scalar (α : Type) extends Add α, Sub α, Mul α, Div α, Neg α, LT α, LE α, BEq α where
  ofNat : Nat → α
  half : α
  epsilon : α
  abs : α → α
  /-- The square root of a positive number, where roots are at hand. -/
  sqrt? : α → Option α
  isFinite : α → Bool
  decidableLT : DecidableLT α
  decidableLE : DecidableLE α

namespace Scalar
variable {α : Type} [Scalar α]

attribute [reducible, instance] decidableLT decidableLE

instance (priority := low) instOfNat (n : Nat) : OfNat α n := ⟨Scalar.ofNat n⟩

/-- The larger of two numbers; undefined when one of them is. -/
def maximum (x y : α) : α := if y ≤ x || !(x == x) then x else y

end Scalar

instance : Scalar Float where
  ofNat := Float.ofNat
  half := 0.5
  epsilon := 1.0 / 4503599627370496.0
  abs := Float.abs
  sqrt? x := some x.sqrt
  isFinite := Float.isFinite
  decidableLT := inferInstance
  decidableLE := inferInstance

instance : Scalar Rat where
  ofNat n := n
  half := 1 / 2
  epsilon := 1 / 4503599627370496
  abs x := if x < 0 then -x else x
  sqrt? _ := none
  isFinite _ := true
  decidableLT := inferInstance
  decidableLE := inferInstance

instance : LT Double := ⟨fun x y => x.value < y.value⟩
instance : LE Double := ⟨fun x y => x.value ≤ y.value⟩
instance : BEq Double := ⟨fun x y => x.value == y.value⟩

instance : Scalar Double where
  ofNat n := .ofFloat (.ofNat n)
  half := .ofFloat 0.5
  epsilon := .ofFloat (Scalar.epsilon : Float)
  abs := Double.abs
  sqrt? x := some (x.apply Float.sqrt)
  isFinite x := x.value.isFinite
  decidableLT x y := inferInstanceAs (Decidable (x.value < y.value))
  decidableLE x y := inferInstanceAs (Decidable (x.value ≤ y.value))

end RootFinding
