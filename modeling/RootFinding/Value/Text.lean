import RootFinding.Grid.FloatText
import RootFinding.Text.Quoted
import RootFinding.Value.Basic

/-!
# The text of values

Doubles have their shortest decimals. Text stands as it is on its own and between quotes inside a
list.
-/
namespace RootFinding.Value
open Number Layout

/-- What the entries of an array do not tell as they are written: its extents where some are left
out or there are none, and then also their kind. -/
def arrayRemarks (a : Grid Float) : List String :=
  (if (a.size = 0 && a.shape != [0]) || threshold < a.size then
    ["shape=" ++ Grid.shapeText a.shape] else []) ++
  if a.size = 0 then ["dtype=float64"] else []

/-- An array as it is written inside a list, where it carries its name and remarks. Remarks that
would pass the width of the last line stand on a line of their own. A number taken out of an array
carries the name of its kind. -/
def arrayText (a : Grid Float) : String :=
  if a.rank = 0 then "np.float64(" ++ Decimal.shortestText (a.entries.headD 0) ++ ")" else
  let name := "array("
  let indent := name.length
  let body := name ++ Layout.text ⟨", ", indent + 1, lineWidth - 1⟩ (floatWords .brief a)
  match arrayRemarks a with
  | [] => body ++ ")"
  | remarks =>
    let body := body ++ ","
    let remarks := ", ".intercalate remarks ++ ")"
    let lead :=
      if lineWidth < lastLineLength body + 1 + remarks.length then "\n" ++ blanks indent else " "
    body ++ lead ++ remarks

mutual

def nestedText : Value → String
  | .nothing => "None"
  | .truth b => truthText b
  | .int n => toString n
  | .real x => Decimal.shortestText x.value
  | .text s => Text.quoted s
  | .list items => "[" ++ ", ".intercalate (nestedTexts items) ++ "]"
  | .record names items =>
    let field (name item : String) : String := Text.quoted name ++ ": " ++ item
    "\x7b" ++ ", ".intercalate (List.zipWith field names (nestedTexts items)) ++ "\x7d"
  | .array a => arrayText a

def nestedTexts : List Value → List String
  | [] => []
  | v :: rest => nestedText v :: nestedTexts rest

end

def shown : Value → String
  | .text s => s
  | .array a => if a.rank = 0 then Decimal.shortestText (a.entries.headD 0) else briefText a
  | v => nestedText v

def maximalDigits : Nat := 4300

mutual

def isWritable : Value → Bool
  | .int n => n.natAbs < Nat.pow 10 maximalDigits
  | .list items => areWritable items
  | .record _ items => areWritable items
  | _ => true

def areWritable : List Value → Bool
  | [] => true
  | v :: rest => isWritable v && areWritable rest

end

def kindName : Value → String
  | .nothing => "NoneType"
  | .truth _ => "bool"
  | .int _ => "int"
  | .real _ => "float"
  | .text _ => "str"
  | .list _ => "list"
  | .record _ _ => "dict"
  | .array _ => "ndarray"

end RootFinding.Value
