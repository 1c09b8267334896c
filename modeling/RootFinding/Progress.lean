import RootFinding.Bracketing.Brent
import RootFinding.FixedPoint.Broyden
import RootFinding.FixedPoint.Steffensen
import RootFinding.FixedPoint.Wegstein
import RootFinding.Style.Basic
import RootFinding.System.Newton
import RootFinding.System.Sand
import RootFinding.Value.Aligned

/-!
# Progress messages

The text of what a search reports. Iterations stand one level below headings and endings, in the
dotted style.
-/
namespace RootFinding.Progress
open Number

def norm (xs : List Float) : Float := (Vec.dot xs xs).sqrt

/-- What a bracketing search shows of an iteration: the point and the value there. -/
def bracketDetail (detail : Double × Quantity) : String :=
  let (x, fx) := detail
  let value := match fx.toDouble with
    | .ok y => y.value
    | .error _ => 0.0 / 0.0
  "x = " ++ Decimal.fixedText .blank 12 x.value ++ ", f(x) = " ++
    Decimal.scientificText .capital .plus 5 value

/-- What an iteration on a system shows: the norm of the residual and the point. -/
def residualDetail (detail : Grid Float × Grid Float) : String :=
  "||f(x)|| = " ++ Decimal.scientificText .capital .nothing 5 (norm detail.1.entries) ++
    ", x = " ++ Aligned.grid detail.2

/-- What a fixed point iteration shows: the point. -/
def pointDetail (x : List Float) : String := "x = " ++ Aligned.grid (.vector x)

/-- The lead of a level of notes: the first one hangs at the top, the second one below it. -/
def lead (level : Nat) : String := if level ≤ 1 then "" else Style.Decoration.dots.lead

def body {Detail : Type} (method : String) (detail : Detail → String) : Note Detail → String
  | .heading none => method ++ ":"
  | .heading (some n) => s!"{method} - Solving {n} Equations:"
  | .iteration k d => s!"Iteration {k}: " ++ detail d
  | .converged => "-> Converged."
  | .exhausted => "-> Reached iteration limit."

def line {Detail : Type} (method : String) (detail : Detail → String) (note : Note Detail) :
    String :=
  lead note.level ++ body method detail note ++ "\n"

def shows {Detail : Type} (display : Value) (note : Note Detail) : Except Failure Bool :=
  Value.isAtMost (.int note.level) display

end RootFinding.Progress
