import RootFinding.Solver

/-!
# Running a solver

A solver run on the values that a caller passes: its answer or failure, the messages printed, and
the arguments of the calls made on the way.
-/
namespace RootFinding
open Number

structure RunOptions where
  /-- Give an account with the answer. -/
  full : Bool := false
  /-- Fail where an iteration on a system does not converge; not unless asked for. A bracketing
  search always fails then and does not have this option. -/
  strict : Option Bool := none
  deriving DecidableEq, Repr

def RunOptions.isStrict (options : RunOptions) : Bool := options.strict.getD false

/-- What a run that does not fail tells besides its answer. -/
structure Account where
  converged : Bool
  iterations : Nat
  evaluations : Nat
  method : String
  deriving DecidableEq, Repr

/-- The flag of an account: zero when converged, else one. -/
def Account.flag (a : Account) : Nat := if a.converged then 0 else 1

structure Solution where
  answer : Value
  account : Option Account

structure Run where
  outcome : Except Failure Solution
  printed : String := ""
  evaluations : Array Value := #[]
  slopes : Array Value := #[]

namespace Run

def failed (cause : Failure) : Run := { outcome := .error cause }

/-- What can be seen of a trace: its notes as lines, its questions as values, its end settled. -/
def ofTrace {Point Place Detail Answer : Type} (line : Note Detail → String)
    (point : Point → Value) (place : Place → Value) (settle : Answer → Except Failure Solution)
    (trace : Trace Point Place Detail Answer) : Run where
  outcome := trace.outcome.bind settle
  printed := String.join (trace.notes.toList.map line)
  evaluations := trace.evaluations.map point
  slopes := trace.slopes.map place

end Run

namespace Solver

def conclude (s : Solver) (options : RunOptions) (answer : Value) (converged : Bool)
    (iterations evaluations : Nat) : Solution where
  answer
  account :=
    if options.full then some ⟨converged, iterations, evaluations, s.method.name⟩ else none

/-- The end of a bracketing search: its root, or a report of the last two points. -/
def settleBracket (s : Solver) (options : RunOptions) :
    Brent.Ending Double Quantity → Except Failure Solution
  | .root x iterations =>
    .ok (s.conclude options (.real x) true iterations (Brent.evaluations iterations))
  | .exhausted a b fa fb iterations =>
    .error (.notConverged (.ofBracket (.real a) (.real b) [("fa", fa.toValue), ("fb", fb.toValue),
      ("iterations", .int iterations), ("fevals", .int (Brent.evaluations iterations))]))

/-- The end of an iteration on a system: its point in the form of the start. An unconverged one is a
failure only where the caller asks for that. -/
def settleSystem (s : Solver) (options : RunOptions) (single : Bool) (e : Ending (Grid Float)) :
    Except Failure Solution :=
  if !e.converged && options.isStrict then
    .error (.notConverged (.ofNotice [.text (s.method.name ++ " failed to converge:")]
      [("flag", .int 1), ("details", .text s!"Reached maxiter = {s.limit.count}."),
        ("x", .array e.point), ("iterations", .int e.iterations),
        ("fevals", .int e.evaluations)]))
  else do
    let x ← restore e.point single
    return s.conclude options x e.converged e.iterations e.evaluations

def ask (f : Function) (residual : Option (List Float)) (number : Nat) (x : Grid Float) :
    Except Failure Answer :=
  f { argument := .array x, residual, number }

def runBracket (s : Solver) (options : RunOptions) (tol : RootTolerance) (f : Function)
    (lower upper : Value) : Run :=
  match lower.toDouble, upper.toDouble with
  | .error cause, _ | _, .error cause => .failed cause
  | .ok lower, .ok upper =>
    let search : Brent.Searching Value Quantity Double :=
      Brent.search s.limit.count (.ofFloat tol.value) lower upper
    let trace := search.run {
      value := fun number x => do return (← f { argument := .number x, number }).toReading
      slope := fun _ => Empty.elim
      shows := Progress.shows s.display }
    .ofTrace (Progress.line s.method.name Progress.bracketDetail) .real Empty.elim
      (s.settleBracket options) trace

def runValues (s : Solver) (options : RunOptions) (f : Function) (start : Start)
    (search : Iteration.Searching Float Empty Empty (List Float)) : Run :=
  let trace := search.run {
    value := fun number x => do (← ask f none number (.vector x)).toGrid
    slope := fun _ => Empty.elim
    shows := Progress.shows s.display }
  .ofTrace (Progress.line s.method.name Progress.pointDetail) (.ofGrid <| .vector ·) Empty.elim
    (fun e => s.settleSystem options start.single { e with point := .vector e.point }) trace

def runNewton (s : Solver) (options : RunOptions) (f g : Function) (start : Start)
    (tol : List Float) : Run :=
  let trace := (Newton.search s.limit.count tol start.point).run {
    value := fun number x => do (← ask f none number (.vector x)).toGrid
    slope := fun number (x, fx) => do (← ask g (some fx) number (.vector x)).toGrid
    shows := Progress.shows s.display }
  let detail (d : List Float × List Float) : String :=
    Progress.residualDetail (.vector d.1, .vector d.2)
  .ofTrace (Progress.line s.method.name detail) (.ofGrid <| .vector ·) (.ofGrid <| .vector ·.1)
    (fun e => s.settleSystem options start.single { e with point := .vector e.point }) trace

def runSand (s : Solver) (options : RunOptions) (f g : Function) (start : Start)
    (tol : List Float) : Run :=
  let trace := (Sand.search s.limit.count tol start.point).run {
    value := fun number x => do (← ask f none number x).toGrid
    slope := fun number x => do return (← ask g none number x).toJacobian
    shows := Progress.shows s.display }
  .ofTrace (Progress.line s.method.name Progress.residualDetail) .ofGrid .ofGrid
    (s.settleSystem options start.single) trace

def prepare (x tol : Value) : Except Failure (Start × List Float) := do
  let start ← Start.ofValue x
  return (start, ← start.tolerance tol)

def prepareRelative (x absolute relative : Value) :
    Except Failure (Start × List (Tolerance Float)) := do
  let (start, absolutes) ← prepare x absolute
  let relatives ← start.tolerance relative
  return (start, List.zipWith Tolerance.mk absolutes relatives)

def runFixedPoint (s : Solver) (options : RunOptions) (f : Function) (arguments : List Value)
    (search : List (Tolerance Float) → List Float →
      Iteration.Searching Float Empty Empty (List Float)) : Run :=
  match arguments with
  | [x, absolute, relative] =>
    match prepareRelative x absolute relative with
    | .ok (start, tol) => s.runValues options f start (search tol start.point)
    | .error cause => .failed cause
  | _ => .failed .argumentCount

def runSystem (arguments : List Value) (run : Start → List Float → Run) : Run :=
  match arguments with
  | [x, tol] =>
    match prepare x tol with
    | .ok (start, tol) => run start tol
    | .error cause => .failed cause
  | _ => .failed .argumentCount

/-- Run a solver on the values that a caller passes. A bracketing search also takes the function. -/
def run (s : Solver) (arguments : List Value) (function : Option Function)
    (options : RunOptions) : Run :=
  match s.method with
  | .brent tol =>
    match arguments, function, options.strict with
    | [lower, upper], some f, none => s.runBracket options tol f lower upper
    | _, _, some _ => .failed .unknownOption
    | _, _, _ => .failed .argumentCount
  | .newton f g => runSystem arguments fun start tol => s.runNewton options f g start tol
  | .sand f g => runSystem arguments fun start tol => s.runSand options f g start tol
  | .broyden f => s.runFixedPoint options f arguments (Broyden.search s.limit.count)
  | .steffensen f => s.runFixedPoint options f arguments (Steffensen.search s.limit.count)
  | .wegstein f => s.runFixedPoint options f arguments (Wegstein.search s.limit.count)

end Solver
end RootFinding
