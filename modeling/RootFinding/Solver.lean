import RootFinding.Function
import RootFinding.Progress
import RootFinding.Start

/-!
# Solvers

A method with its settings. The iteration limit is at least one and the tolerance of a bracketing
search is positive; a copy with one setting changed keeps the others.
-/
namespace RootFinding
open Number

structure Limit where
  count : Nat
  positive : 1 ≤ count

structure RootTolerance where
  value : Float
  positive : 0 < value

inductive Method where
  | brent (tol : RootTolerance)
  | newton (value slope : Function)
  | sand (value slope : Function)
  | broyden (value : Function)
  | steffensen (value : Function)
  | wegstein (value : Function)

/-- A method, its iteration limit, and how much of its progress is shown. -/
structure Solver where
  method : Method
  limit : Limit
  display : Value

namespace Limit

def ofValue (v : Value) : Except Failure Limit := do
  let n ← v.toInt
  if h : 1 ≤ n.toNat then return ⟨n.toNat, h⟩ else throw .limitTooSmall

end Limit

namespace RootTolerance

def refusal (v : Value) : Failure :=
  .toleranceTooSmall (v.toFloat.toOption.map Decimal.generalText)

/-- Read a tolerance: a number above zero. -/
def ofValue (v : Value) : Except Failure RootTolerance := do
  if ← Value.isBelow (.int 0) v then
    let x ← v.toFloat
    if h : 0 < x then return ⟨x, h⟩ else throw (refusal v)
  else throw (refusal v)

end RootTolerance

namespace Method

def name : Method → String
  | .brent _ => "Brent's Method"
  | .newton _ _ => "Newton-Raphson Method"
  | .sand _ _ => "SAND Method"
  | .broyden _ => "Broyden's Method"
  | .steffensen _ => "Steffensen's Method"
  | .wegstein _ => "Wegstein's Method"

def shortName : Method → String
  | .brent _ => "Brent"
  | .newton _ _ => "NewtonRaphson"
  | .sand _ _ => "Sand"
  | .broyden _ => "Broyden"
  | .steffensen _ => "Steffensen"
  | .wegstein _ => "Wegstein"

def tolerance? : Method → Option RootTolerance
  | .brent tol => some tol
  | _ => none

def hasSlope : Method → Bool
  | .newton _ _ | .sand _ _ => true
  | _ => false

end Method

structure Functions where
  value : Option Function := none
  slope : Option Function := none

/-- The methods without their settings. -/
inductive Family where
  | brent
  | newton
  | sand
  | broyden
  | steffensen
  | wegstein
  deriving DecidableEq, Repr

namespace Family

/-- The iteration limit unless another is given. -/
def defaultLimit : Family → Int
  | .brent => 100
  | .newton => 20
  | _ => 500

def defaultTolerance : Value := .ofFloat 1e-8

/-- A method of the family with the functions that it needs and no others. What is left to read is
a tolerance, which only bracketing searches have. -/
def method (family : Family) (functions : Functions) :
    Except Failure (Value → Except Failure Method) :=
  match family, functions.value, functions.slope with
  | .brent, none, none => .ok fun tol => do return .brent (← RootTolerance.ofValue tol)
  | .newton, some f, some g => .ok fun _ => .ok (.newton f g)
  | .sand, some f, some g => .ok fun _ => .ok (.sand f g)
  | .broyden, some f, none => .ok fun _ => .ok (.broyden f)
  | .steffensen, some f, none => .ok fun _ => .ok (.steffensen f)
  | .wegstein, some f, none => .ok fun _ => .ok (.wegstein f)
  | _, _, _ => .error .argumentCount

end Family

def Method.family : Method → Family
  | .brent _ => .brent
  | .newton _ _ => .newton
  | .sand _ _ => .sand
  | .broyden _ => .broyden
  | .steffensen _ => .steffensen
  | .wegstein _ => .wegstein

structure SolverOptions where
  limit : Option Value := none
  tolerance : Option Value := none
  display : Option Value := none
  /-- Whether there is an option besides these. -/
  unknown : Bool := false

namespace Solver

/-- A new solver. The limit is read before the tolerance. -/
def create (family : Family) (options : SolverOptions) (functions : Functions) :
    Except Failure Solver := do
  if options.unknown || (family != .brent && options.tolerance.isSome) then throw .unknownOption
  let method ← family.method functions
  let limit ← Limit.ofValue (options.limit.getD (.int family.defaultLimit))
  let method ← method (options.tolerance.getD Family.defaultTolerance)
  return { method, limit, display := options.display.getD (.int 0) }

def withLimit (s : Solver) (v : Value) : Except Failure Solver := do
  return { s with limit := ← Limit.ofValue v }

def withTolerance (s : Solver) (v : Value) : Except Failure Solver :=
  match s.method with
  | .brent _ => do return { s with method := .brent (← RootTolerance.ofValue v) }
  | _ => .error .noSuchSetting

def text (s : Solver) : String :=
  let tolerance := match s.method.tolerance? with
    | some tol => ", tol=" ++ Decimal.shortestText tol.value
    | none => ""
  s!"{s.method.shortName}(maxiter={s.limit.count}, display_level=" ++
    s.display.nestedText ++ tolerance ++ ")"

end Solver
end RootFinding
