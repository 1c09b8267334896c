import RootFinding.Formula.Datum
import RootFinding.Scalar

/-!
# Expressions

Arithmetic on doubles in the argument of a function, its length, the position within the result and
the number of earlier calls.
-/
namespace RootFinding
open Number

inductive UnaryOp where
  | neg
  | abs
  | sqrt
  | sin
  | cos
  | tan
  | exp
  | log
  deriving DecidableEq, Repr

inductive BinaryOp where
  | add
  | sub
  | mul
  | div
  deriving DecidableEq, Repr

inductive Expr where
  | const (v : Value)
  /-- The argument, or its component at the current position. -/
  | argument
  | row
  | column
  | length
  | calls
  | component (place : Expr)
  /-- A component of the residual at the argument. -/
  | residual (place : Expr)
  | unary (op : UnaryOp) (a : Expr)
  | binary (op : BinaryOp) (a b : Expr)
  | power (a : Expr) (n : Nat)
  /-- `yes` where `a < b`, else `no`. -/
  | ifLess (a b yes no : Expr)
  | raise (text : String)
  deriving Inhabited

/-- Where an expression is evaluated: within the answer to a call. -/
structure Site extends Call where
  row : Nat := 0
  column : Nat := 0

namespace Site

def current (s : Site) : Except Failure Datum := s.argument.component s.row

def residualAt (s : Site) (place : Int) : Except Failure Datum :=
  match s.residual with
  | none => .error .wrongKind
  | some xs =>
    match (position? xs.length place).bind (xs[·]?) with
    | some x => .ok (.number (.ofFloat x))
    | none => .error .noSuchItem

end Site

def UnaryOp.apply : UnaryOp → Double → Double
  | .neg, x => -x
  | .abs, x => x.abs
  | .sqrt, x => x.apply Float.sqrt
  | .sin, x => x.apply Float.sin
  | .cos, x => x.apply Float.cos
  | .tan, x => x.apply Float.tan
  | .exp, x => x.apply Float.exp
  | .log, x => x.apply Float.log

/-- A quotient: a divisor of zero gives an infinite value, or an undefined one with a positive
sign. -/
def divide (x y : Double) : Double :=
  if y.value == 0 then
    if x.value == 0 || x.value.isNaN then .undefined else .ofFloat (x.value / y.value)
  else x / y

def BinaryOp.apply : BinaryOp → Double → Double → Double
  | .add, x, y => x + y
  | .sub, x, y => x - y
  | .mul, x, y => x * y
  | .div, x, y => divide x y

/-- Apply an operation to data. Items can only be joined. -/
def BinaryOp.applyData (op : BinaryOp) : Datum → Datum → Except Failure Datum
  | .number x, .number y => .ok (.number (op.apply x y))
  | .items ps, .items qs => if op = .add then .ok (.items (ps ++ qs)) else .error .wrongKind
  | _, _ => .error .wrongKind

/-- A power as a product of `n` factors from the left. -/
def power (x : Double) : Nat → Double
  | 0 => 1
  | n + 1 => power x n * x

/-- A power of a datum. Items have only the power without factors. -/
def Datum.power : Datum → Nat → Except Failure Datum
  | .number x, n => .ok (.number (RootFinding.power x n))
  | .items _, 0 => .ok (.number 1)
  | .items _, _ + 1 => .error .wrongKind

def Datum.toDouble : Datum → Except Failure Double
  | .number x => .ok x
  | .items _ => .error .wrongKind

def Datum.place (d : Datum) : Except Failure Int := do
  let x ← d.toDouble
  match truncate? x.value with
  | some n => return n
  | none => throw (if x.value.isNaN then .undefinedPlace else .tooLarge)

namespace Expr

def count (n : Nat) : Except Failure Datum := .ok (.number (.ofFloat (.ofNat n)))

def eval (s : Site) : Expr → Except Failure Datum
  | .const v => do return .number (← v.toDouble)
  | .argument => s.current
  | .row => count s.row
  | .column => count s.column
  | .length => count s.length
  | .calls => count s.number
  | .component e => do s.argument.component (← (← eval s e).place)
  | .residual e => do s.residualAt (← (← eval s e).place)
  | .unary op a => do return .number (op.apply (← (← eval s a).toDouble))
  | .binary op a b => do
    let x ← eval s a
    let y ← eval s b
    op.applyData x y
  | .power a n => do (← eval s a).power n
  | .ifLess a b yes no => do
    let x ← eval s a
    let y ← eval s b
    if ← s.argument.isBelow x y then eval s yes else eval s no
  | .raise text => .error (.raised text)

end Expr
end RootFinding
