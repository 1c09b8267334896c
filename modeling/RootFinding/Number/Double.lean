import RootFinding.Number.Binary

/-!
# Doubles with a sign on undefined values

An undefined value has a sign bit as well. Arithmetic passes the sign of an undefined operand on,
the left one first, and an undefined result of defined operands is negative, as the usual floating
point units have it. Comparisons never see the sign; only `Double.negative` does.
-/
namespace RootFinding.Number

/-- A double together with the sign bit that counts when its value is undefined. -/
structure Double where
  value : Float
  undefinedNegative : Bool := false

namespace Double

/-- A plain double; when undefined, its sign is positive. -/
def ofFloat (x : Float) : Double := ⟨x, false⟩

instance : Inhabited Double := ⟨ofFloat 0⟩

def undefined : Double := ofFloat (0.0 / 0.0)

def negative (x : Double) : Bool :=
  if x.value.isNaN then x.undefinedNegative else isNegative x.value

/-- Lift an operation on doubles and choose the sign of an undefined result. -/
def combine (op : Float → Float → Float) (x y : Double) : Double :=
  if x.value.isNaN then x
  else if y.value.isNaN then y
  else ⟨op x.value y.value, true⟩

instance : Add Double := ⟨combine (· + ·)⟩
instance : Sub Double := ⟨combine (· - ·)⟩
instance : Mul Double := ⟨combine (· * ·)⟩
instance : Div Double := ⟨combine (· / ·)⟩
instance : Neg Double := ⟨fun x => ⟨-x.value, !x.undefinedNegative⟩⟩

def abs (x : Double) : Double := ⟨x.value.abs, false⟩

/-- Apply a function of one variable; an undefined argument is passed on, and a value outside the
domain is undefined with a positive sign. -/
def apply (f : Float → Float) (x : Double) : Double :=
  if x.value.isNaN then x else ofFloat (f x.value)

end Double
end RootFinding.Number
