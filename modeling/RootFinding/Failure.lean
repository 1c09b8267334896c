import RootFinding.Report

/-!
# Failures

The causes for which an operation ends without an answer, and the message of each.
-/
namespace RootFinding

inductive Failure where
  /-- An option that the operation does not have. -/
  | unknownOption
  /-- Too few or too many arguments. -/
  | argumentCount
  /-- A value of a kind for which the operation has no meaning. -/
  | wrongKind
  /-- A text that is no numeral, or an integer too long for one. -/
  | notNumeral
  /-- Lists nested unevenly or too deeply for an array. -/
  | uneven
  /-- Shapes without a common one, or an array that does not count as one truth value. -/
  | incompatibleShapes
  /-- A number of decimals that cannot be written. -/
  | badPrecision
  /-- A matrix or right-hand side with an undefined or infinite entry. -/
  | notFinite
  /-- A right-hand side whose length does not fit the matrix. -/
  | lengthMismatch
  /-- A number too large for the arithmetic at hand. -/
  | tooLarge
  /-- A number with more characters than fit into a column. -/
  | tooWide
  /-- A text or list too long to be held. -/
  | outOfMemory
  /-- A place in a list given by an undefined number. -/
  | undefinedPlace
  /-- A matrix without an inverse. -/
  | singular
  /-- A place or number that does not exist. -/
  | noSuchItem
  /-- A setting or ability that the subject does not have. -/
  | noSuchSetting
  /-- A style that is its own ancestor. -/
  | cyclicStyles
  /-- The caller's function gave up. -/
  | raised (text : String)
  | limitTooSmall
  /-- A tolerance that is not above zero, with its decimals; an integer beyond the doubles has none,
  and the failure is then that of writing it. -/
  | toleranceTooSmall (shown : Option String)
  | toleranceShape (start : List Nat)
  | resultShape (expected found : List Nat)
  | sameSign
  | startRank (rank : Nat)
  | notSquare (shape : List Nat)
  | notJacobian (kind : String)
  | rightHandSide (size : Nat) (found : List Nat)
  | negativeBandwidth (lower upper : Int)
  | diagonalCount (expected found : Nat)
  | tridiagonal (lower upper : Nat)
  | banded (lower upper : Nat)
  | abstractSolve
  | notSingle (size : Nat)
  | notConverged (report : Report)
  | styleDefined (name : String)
  | parentNotFound (name : String)
  | styleNotFound (name : String)
  deriving Inhabited

namespace Failure

inductive Kind where
  | argument
  | value
  | overflow
  | memory
  | runtime
  | singular
  | place
  | setting
  | recursion
  | unsupported
  | caller
  | unconverged
  | unbracketed
  deriving DecidableEq, Repr

def kind : Failure → Kind
  | .unknownOption | .argumentCount | .wrongKind | .notJacobian _ => .argument
  | .tooLarge | .toleranceTooSmall none => .overflow
  | .outOfMemory => .memory
  | .tooWide => .runtime
  | .singular => .singular
  | .noSuchItem => .place
  | .noSuchSetting => .setting
  | .cyclicStyles => .recursion
  | .tridiagonal _ _ | .banded _ _ | .abstractSolve => .unsupported
  | .raised _ => .caller
  | .notConverged report => if report.bracket then .unbracketed else .unconverged
  | _ => .value

def bandwidths (lower upper : Int) : String := s!"ml = {lower}, mu = {upper}"

def message : Failure → String
  | .raised text => text
  | .limitTooSmall => "maxiter must be greater than 0"
  | .toleranceTooSmall (some shown) => s!"tol too small ({shown} <= 0)"
  | .toleranceTooSmall none => "int too large to convert to float"
  | .toleranceShape start =>
    s!"Tolerances must be broadcastable to the shape of x0 {Grid.shapeText start}."
  | .resultShape expected found =>
    s!"Wrong shape output from f(x): Expected {Grid.shapeText expected} got " ++
      s!"{Grid.shapeText found}."
  | .sameSign => "f(lower_bound) and f(upper_bound) must have opposite signs."
  | .startRank rank =>
    s!"Result array dimensions ndim = {rank} incorrect, expected ndim = 1."
  | .notSquare shape =>
    s!"Jacobian should be a square matrix, but found shape {Grid.shapeText shape}."
  | .notJacobian kind => s!"jac(x) must return a Jacobian, got {kind}."
  | .rightHandSide size found =>
    s!"Expected right-hand side of shape ({size},), got {Grid.shapeText found}."
  | .negativeBandwidth lower upper =>
    s!"Bandwidths must be non-negative, got {bandwidths lower upper}."
  | .diagonalCount expected found =>
    s!"Expected ml + mu + 1 = {expected} diagonals, got {found}."
  | .tridiagonal lower upper =>
    s!"Tridiagonal Jacobian solve is not implemented ({bandwidths lower upper})."
  | .banded lower upper =>
    s!"Banded Jacobian solve is not implemented for {bandwidths lower upper}."
  | .notSingle size => s!"Single value expected, got {size}."
  | .notConverged report => report.text
  | .styleDefined name => s!"Print style '{name}' already defined."
  | .parentNotFound name => s!"Parent print style '{name}' not found."
  | .styleNotFound name => s!"Style '{name}' not found."
  | _ => ""

end Failure

namespace Report

/-- Add a named value. Some names are parts of every report instead: `args` is the notice in place
of another one; the links to other failures can only be absent, and whether they are told is a truth
value; kind, table of names and watchers cannot be replaced. -/
def put (report : Report) : String × Value → Except Failure Report
  | ("args", v) =>
    match v.items? with
    | some notice => .ok { report with notice }
    | none => .error .wrongKind
  | ("__cause__", v) | ("__context__", v) | ("__traceback__", v) =>
    if v matches .nothing then .ok report else .error .wrongKind
  | ("__suppress_context__", v) => if v matches .truth _ then .ok report else .error .wrongKind
  | ("__class__", _) | ("__dict__", _) => .error .wrongKind
  | ("__weakref__", _) => .error .noSuchSetting
  | field => .ok { report with named := report.named ++ [field] }

/-- A report as its values are put one by one; the name `self` is taken by the report. -/
def reserve (given : List (String × Value)) (report : Report) : Except Failure Report :=
  if given.any (·.1 == "self") then .error .argumentCount
  else report.named.foldlM put { report with named := [] }

def ofCaller (notice : List Value) (given : List (String × Value)) : Except Failure Report :=
  reserve given (ofNotice notice given)

/-- The report on a bracket whose last two points come in order or by the names `a` and `b`, each
exactly once. -/
def ofPoints (points : List Value) (given : List (String × Value)) : Except Failure Report :=
  let rest := given.filter fun (name, _) => name != "a" && name != "b"
  match points, lookup? "a" given, lookup? "b" given with
  | [a, b], none, none | [a], none, some b | [], some a, some b =>
    reserve given (ofBracket a b rest)
  | _, _, _ => .error .argumentCount

end Report
end RootFinding
