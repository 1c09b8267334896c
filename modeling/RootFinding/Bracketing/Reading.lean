import RootFinding.Scalar
import RootFinding.Value.Numeric

/-!
# Readings of a function

What a function answers to a bracketing search. Besides the scalars of the search itself these are
the numbers that a caller may return: integers of any size and truth values keep their exact value
until a quotient or product with a double rounds them.
-/
namespace RootFinding
open Number

/-- Answers of a function from which signs, comparisons and quotients can be taken. -/
class Reading (Raw : Type) (ρ α : outParam Type) where
  /-- The answers at the two ends of the bracket. -/
  ends : Raw → Raw → Except Failure (ρ × ρ)
  /-- A later answer. -/
  accept : Raw → Except Failure ρ
  /-- Whether a product is positive. -/
  productPositive : ρ → ρ → Except Failure Bool
  /-- Whether the first magnitude is the smaller one. -/
  smaller : ρ → ρ → Bool
  isZero : ρ → Bool
  quotient : ρ → ρ → Except Failure α
  /-- Whether the first, with its sign turned where the second has a minus, is positive. -/
  sameSide : ρ → ρ → Except Failure Bool

instance : Reading Rat Rat Rat where
  ends x y := .ok (x, y)
  accept := .ok
  productPositive x y := .ok (0 < x * y)
  smaller x y := Scalar.abs x < Scalar.abs y
  isZero x := x == 0
  quotient x y := .ok (x / y)
  sameSide x y := .ok (if y < 0 then 0 < -x else 0 < x)

instance : Reading Double Double Double where
  ends x y := .ok (x, y)
  accept := .ok
  productPositive x y := .ok (0 < x * y)
  smaller x y := Scalar.abs x < Scalar.abs y
  isZero x := x == 0
  quotient x y := .ok (x / y)
  sameSide x y := .ok (0 < x * if y.negative then (-1 : Double) else 1)

/-- A number that a caller's function answered. -/
inductive Quantity where
  | int (n : Int)
  | truth (b : Bool)
  | real (x : Double)

namespace Quantity

def ofValue? : Value → Option Quantity
  | .int n => some (.int n)
  | .truth b => some (.truth b)
  | .real x => some (.real x)
  | _ => none

def toValue : Quantity → Value
  | .int n => .int n
  | .truth b => .truth b
  | .real x => .real x

def exact : Quantity → Int ⊕ Double
  | .int n => .inl n
  | .truth b => .inl (if b then 1 else 0)
  | .real x => .inr x

def toDouble (x : Quantity) : Except Failure Double :=
  match x.exact with
  | .inl n => do return .ofFloat (← Value.roundInt n)
  | .inr x => .ok x

def smaller (x y : Quantity) : Bool :=
  match x.exact, y.exact with
  | .inl m, .inl n => m.natAbs < n.natAbs
  | .inl m, .inr y => compareInt m.natAbs y.value.abs == some .lt
  | .inr x, .inl n => compareInt n.natAbs x.value.abs == some .gt
  | .inr x, .inr y => x.abs < y.abs

def isZero (x : Quantity) : Bool :=
  match x.exact with
  | .inl n => n == 0
  | .inr x => x == 0

/-- Whether a product is positive: exact for integers, else of the nearest doubles. -/
def productPositive (x y : Quantity) : Except Failure Bool :=
  match x.exact, y.exact with
  | .inl m, .inl n => .ok (0 < m * n)
  | _, _ => do return 0 < (← x.toDouble) * (← y.toDouble)

/-- A quotient: that of integers is rounded once, else the nearest doubles are divided. -/
def quotient (x y : Quantity) : Except Failure Double :=
  match x.exact, y.exact with
  | .inl m, .inl n =>
    match quotient? m n with
    | some z => .ok (.ofFloat z)
    | none => .error .tooLarge
  | _, _ => do return (← x.toDouble) / (← y.toDouble)

def signFactor (y : Quantity) : Except Failure Double := do
  return if (← y.toDouble).negative then -1 else 1

def sameSide (x y : Quantity) : Except Failure Bool := do
  let factor ← y.signFactor
  return 0 < (← x.toDouble) * factor

/-- Make sure that a product of two values can be formed where one is a whole number, which repeats
a text or list. -/
def checkProduct (v w : Value) : Except Failure Unit :=
  match v.integer?, w.integer? with
  | none, some n => v.checkRepetition n
  | some n, none => w.checkRepetition n
  | _, _ => .ok ()

/-- The values at both ends of a bracket. Their product decides, so both have to be numbers; a text
or list is refused in the product already where its repetition is too long. -/
def ends (v w : Value) : Except Failure (Quantity × Quantity) :=
  match ofValue? v, ofValue? w with
  | some x, some y => .ok (x, y)
  | _, _ => do
    checkProduct v w
    throw .wrongKind

/-- A later value. It is written into a note, for which it has to round to a double. -/
def accept (v : Value) : Except Failure Quantity :=
  match ofValue? v with
  | some x => do
    let _ ← x.toDouble
    return x
  | none =>
    match v with
    | .text _ => .error .badPrecision
    | _ => .error .wrongKind

end Quantity

instance : Reading Value Quantity Double where
  ends := Quantity.ends
  accept := Quantity.accept
  productPositive := Quantity.productPositive
  smaller := Quantity.smaller
  isZero := Quantity.isZero
  quotient := Quantity.quotient
  sameSide := Quantity.sameSide

end RootFinding
