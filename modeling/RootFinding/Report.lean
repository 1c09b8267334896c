import RootFinding.Value.Text

/-!
# Failure reports

What a solver says when it gives up: a notice, a status flag, details, and further named values in
the order in which they were given.
-/
namespace RootFinding

structure Report where
  notice : List Value
  named : List (String × Value)
  /-- Whether the report is about a bracket that did not close. -/
  bracket : Bool := false
  deriving Inhabited

namespace Report

def lookup? (name : String) (given : List (String × Value)) : Option Value :=
  (given.reverse.find? (·.1 == name)).map (·.2)

def distinct : List (String × Value) → List (String × Value)
  | [] => []
  | (name, v) :: rest =>
    (name, (lookup? name rest).getD v) :: (distinct rest).filter (·.1 != name)

/-- A report with any notice. Flag and details come first, absent ones as nothing. -/
def ofNotice (notice : List Value) (given : List (String × Value)) : Report :=
  let given := distinct given
  let own (name : String) : Value := (lookup? name given).getD .nothing
  { notice
    named := [("flag", own "flag"), ("details", own "details")] ++
      given.filter fun (name, _) => name != "flag" && name != "details" }

/-- The report on a bracket that did not close, with the last two points. Its flag is one unless
another is given. -/
def ofBracket (a b : Value) (given : List (String × Value)) : Report :=
  let given := distinct given
  let own (name : String) (default : Value) : Value := (lookup? name given).getD default
  { notice := [.text ("The algorithm did not converge. The last two values of x are " ++ a.shown ++
      " and " ++ b.shown ++ ".")]
    named := [("flag", own "flag" (.int 1)), ("details", own "details" (.text "Reached maxiter.")),
      ("a", a), ("b", b)] ++ given.filter fun (name, _) => name != "flag" && name != "details"
    bracket := true }

/-- The notice alone. Several values stand between parentheses. -/
def noticeText : List Value → String
  | [] => ""
  | [v] => v.shown
  | vs => "(" ++ ", ".intercalate (Value.nestedTexts vs) ++ ")"

/-- The line of a named value; nothing has no line. -/
def line : String × Value → String
  | (_, .nothing) => ""
  | (name, v) => "\n" ++ name ++ " -> " ++ v.shown

def text (r : Report) : String := noticeText r.notice ++ String.join (r.named.map line)

end Report
end RootFinding
