import RootFinding.Session.Run

/-!
# Sessions

A sequence of steps on numbered solvers: new ones and copies take the next number, and only the
display level of a solver ever changes.
-/
namespace RootFinding

structure Session where
  solvers : Array Solver := #[]

inductive Step where
  | create (family : Family) (options : SolverOptions) (functions : Functions)
  | withLimit (solver : Nat) (limit : Value)
  | withTolerance (solver : Nat) (tolerance : Value)
  | setDisplay (solver : Nat) (level : Value)
  | describe (solver : Nat)
  | solve (solver : Nat) (arguments : List Value) (function : Option Function)
    (options : RunOptions)

inductive StepReply where
  | number (solver : Nat)
  | nothing
  | description (s : Solver)
  | solution (s : Solver) (run : Run)

namespace Session

def solver (session : Session) (number : Nat) : Except Failure Solver :=
  match session.solvers[number]? with
  | some s => .ok s
  | none => .error .noSuchItem

/-- Take a solver in under the next number, unless it could not be made. -/
def register (session : Session) : Except Failure Solver → Session × Except Failure StepReply
  | .ok s =>
    ({ session with solvers := session.solvers.push s }, .ok (.number session.solvers.size))
  | .error cause => (session, .error cause)

def setDisplay (session : Session) (number : Nat) (level : Value) :
    Session × Except Failure StepReply :=
  match session.solver number with
  | .ok s =>
    ({ session with
      solvers := session.solvers.setIfInBounds number { s with display := level } }, .ok .nothing)
  | .error cause => (session, .error cause)

/-- Take a step. Failures of a run are part of its reply. -/
def step (session : Session) : Step → Session × Except Failure StepReply
  | .create family options functions =>
    session.register (Solver.create family options functions)
  | .withLimit number limit =>
    session.register (session.solver number >>= (·.withLimit limit))
  | .withTolerance number tolerance =>
    session.register (session.solver number >>= (·.withTolerance tolerance))
  | .setDisplay number level => session.setDisplay number level
  | .describe number => (session, (session.solver number).map .description)
  | .solve number arguments function options =>
    (session, (session.solver number).map fun s =>
      .solution s (s.run arguments function options))

end Session
end RootFinding
