import RootFinding.Formula.Expr

/-!
# Formulas

Functions given by formulas: how the answer to a call is built from expressions in its argument.
-/
namespace RootFinding
open Number

inductive Formula where
  | scalar (e : Expr)
  /-- The expression at every position of the argument. -/
  | each (e : Expr)
  | exprs (es : List Expr)
  | rows (ess : List (List Expr))
  /-- The expression at every position of a square matrix. -/
  | matrix (e : Expr)
  | value (v : Value)
  /-- The argument itself. -/
  | same
  /-- One formula for each call; the last one stays. -/
  | seq (formulas : List Formula)
  | full (matrix : Formula)
  | banded (lower upper : Value) (diagonals : List Formula)
  | identity
  | abstract
  deriving Inhabited

namespace Formula

def one (s : Site) (e : Expr) : Except Failure Value := do
  return s.argument.valueOf (← e.eval s)

def several (s : Site) (es : List Expr) : Except Failure Value := do
  return .list (← es.mapM (one s))

def positions (n : Nat) (f : Nat → Except Failure Value) : Except Failure Value := do
  return .list (← (List.range n).mapM f)

mutual

def eval (s : Call) : Formula → Except Failure Answer
  | .scalar e => do return .value (← one { toCall := s } e)
  | .each e => do return .value (← positions s.length fun i => one { toCall := s, row := i } e)
  | .exprs es => do return .value (← several { toCall := s } es)
  | .rows ess => do return .value (.list (← ess.mapM (several { toCall := s })))
  | .matrix e => do
    return .value (← positions s.length fun i =>
      positions s.length fun j => one { toCall := s, row := i, column := j } e)
  | .value v => .ok (.value v)
  | .same => .ok (.value s.argument.toValue)
  | .seq formulas => evalAt s s.number formulas
  | .full inner => do return .jacobian (← Jacobian.ofGrid (← (← eval s inner).toGrid))
  | .banded lower upper diagonals => do
    let answers ← evalAll s diagonals
    let lower ← lower.toInt
    let upper ← upper.toInt
    return .jacobian (← Jacobian.ofDiagonals lower upper (answers.map Answer.toGrid))
  | .identity => .ok (.jacobian .identity)
  | .abstract => .ok (.jacobian .abstract)

def evalAt (s : Call) : Nat → List Formula → Except Failure Answer
  | _, [] => .error .noSuchItem
  | _, [f] => eval s f
  | 0, f :: _ => eval s f
  | n + 1, _ :: rest => evalAt s n rest

def evalAll (s : Call) : List Formula → Except Failure (List Answer)
  | [] => .ok []
  | f :: rest => do
    let a ← eval s f
    let answers ← evalAll s rest
    return a :: answers

end

def toFunction (f : Formula) : Function := fun call => f.eval call

end Formula
end RootFinding
