import RootFinding.Linear.JacobianValue
import RootFinding.Value.Numeric

/-!
# Functions of a caller

A function is called with a number or an array of numbers and answers a value or a Jacobian. It may
answer differently on each call.
-/
namespace RootFinding
open Number

/-- The argument of a function: a number, or an array of numbers. -/
inductive Argument where
  | number (x : Double)
  | array (a : Grid Float)

def Argument.toValue : Argument → Value
  | .number x => .real x
  | .array a => .array a

/-- A call of a function: its argument, the residual there where one goes with it, and how many
calls came before. -/
structure Call where
  argument : Argument
  residual : Option (List Float) := none
  number : Nat

def Call.length (c : Call) : Nat :=
  match c.argument with
  | .number _ => 1
  | .array a => a.shape.headD 1

inductive Answer where
  | value (v : Value)
  | jacobian (j : Jacobian Float)

namespace Answer

/-- The answer as a value; a Jacobian is none. -/
def toValue : Answer → Except Failure Value
  | .value v => .ok v
  | .jacobian _ => .error .wrongKind

def toGrid (a : Answer) : Except Failure (Grid Float) := do (← a.toValue).toGrid

def toJacobian : Answer → Except String (Jacobian Float)
  | .value v => .error v.kindName
  | .jacobian j => .ok j

def toReading : Answer → Value
  | .value v => v
  | .jacobian _ => .nothing

end Answer

abbrev Function : Type := Call → Except Failure Answer

end RootFinding
