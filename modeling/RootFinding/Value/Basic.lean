import RootFinding.Grid.Basic
import RootFinding.Number.Double

/-!
# Values

What a caller may pass where a number or an array of numbers is expected: nothing, truth values,
integers of any size, doubles, text, nested lists, records and arrays of doubles.
-/
namespace RootFinding
open Number

inductive Value where
  | nothing
  | truth (b : Bool)
  | int (n : Int)
  | real (x : Double)
  | text (s : String)
  | list (items : List Value)
  /-- Named items; there are as many names as items. -/
  | record (names : List String) (items : List Value)
  /-- An array of doubles. One without axes is a number taken out of an array. -/
  | array (a : Grid Float)
  deriving Inhabited

namespace Value

def truthText (b : Bool) : String := if b then "True" else "False"

/-- The integer that a whole number is; a truth value counts as one or zero. -/
def integer? : Value → Option Int
  | .int n => some n
  | .truth b => some (if b then 1 else 0)
  | _ => none

def ofFloat (x : Float) : Value := .real (.ofFloat x)

/-- Whether a value counts as true: numbers other than zero, and text or lists that are not empty. An
array counts as its only entry. -/
def isTruthy : Value → Bool
  | .nothing => false
  | .truth b => b
  | .int n => n != 0
  | .real x => x.value != 0
  | .text s => !s.isEmpty
  | .list items => !items.isEmpty
  | .record names _ => !names.isEmpty
  | .array a => a.size == 1 && a.entries.any (· != 0)

/-- What a value that can be gone through consists of: the items of a list, the characters of a
text, the names of a record, the slices of an array. -/
def items? : Value → Option (List Value)
  | .list items => some items
  | .text s => some (s.toList.map fun c => .text (String.singleton c))
  | .record names _ => some (names.map .text)
  | .array a => a.slices?.map (·.map .array)
  | _ => none

def ofEntries (leaf : α → Value) : List Nat → List α → Value
  | [], xs => (xs.head?.map leaf).getD .nothing
  | n :: shape, xs => .list ((Grid.pieces (extent shape) n xs).map (ofEntries leaf shape))

def ofGrid (a : Grid Float) : Value := ofEntries ofFloat a.shape a.entries

end Value
end RootFinding
