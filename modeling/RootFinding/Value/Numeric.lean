import RootFinding.Decimal.Numeral
import RootFinding.Failure

/-!
# Values as numbers and arrays

A value becomes a double by rounding integers and reading numerals, and an array of doubles by
reading the shape off its nesting first and converting its entries in order afterwards.
-/
namespace RootFinding.Value
open Number

def toInt (v : Value) : Except Failure Int :=
  match v.integer? with
  | some n => .ok n
  | none => .error .wrongKind

/-- A value as a condition. An array of none or several entries is none. -/
def condition : Value → Except Failure Bool
  | .array a => if a.size = 1 then .ok (isTruthy (.array a)) else .error .incompatibleShapes
  | v => .ok v.isTruthy

/-- A value as it is written on its own, unless a number in it is too long. -/
def written (v : Value) : Except Failure String :=
  if v.isWritable then .ok v.shown else .error .notNumeral

/-- The largest length of a text or list, and the largest number of repetitions. -/
def maximalLength : Nat := Nat.pow 2 63 - 1

def memory : Nat := Nat.pow 2 36

/-- Make sure that a text of `length` characters can be repeated. -/
def checkTextRepetition (length : Nat) (times : Int) : Except Failure Unit :=
  if times < Int64.minValue.toInt || (maximalLength : Int) < times then .error .tooLarge
  else if maximalLength < length * times.toNat then .error .tooLarge
  else if memory < length * times.toNat then .error .outOfMemory
  else .ok ()

/-- Make sure that a list of `length` items of eight bytes can be repeated. -/
def checkListRepetition (length : Nat) (times : Int) : Except Failure Unit :=
  if times < Int64.minValue.toInt || (maximalLength : Int) < times then .error .tooLarge
  else if memory < 8 * (length * times.toNat) then .error .outOfMemory
  else .ok ()

/-- Make sure that a text or list can be repeated; other values are not repeated at all. -/
def checkRepetition (v : Value) (times : Int) : Except Failure Unit :=
  match v with
  | .text s => checkTextRepetition s.length times
  | .list items => checkListRepetition items.length times
  | _ => .error .wrongKind

/-- The double nearest to an integer, or a failure beyond the largest double. -/
def roundInt (n : Int) : Except Failure Float :=
  match ofInt? n with
  | some x => .ok x
  | none => .error .tooLarge

def toDouble : Value → Except Failure Double
  | .truth b => .ok (.ofFloat (if b then 1 else 0))
  | .int n => do return .ofFloat (← roundInt n)
  | .real x => .ok x
  | .text s =>
    match Decimal.readNumeral? s with
    | some x => .ok x
    | none => .error .notNumeral
  | _ => .error .wrongKind

def toFloat (v : Value) : Except Failure Float := do return (← v.toDouble).value

/-- A value as an entry of an array: nothing stands for an undefined entry. -/
def toEntry : Value → Except Failure Float
  | .nothing => .ok (0.0 / 0.0)
  | v => v.toFloat

mutual

def shape? : Value → Option (List Nat)
  | .list items => do
    let shapes ← shapes? items
    match shapes with
    | [] => some [0]
    | shape :: rest => if rest.all (· == shape) then some (items.length :: shape) else none
  | .array a => some a.shape
  | _ => some []

def shapes? : List Value → Option (List (List Nat))
  | [] => some []
  | v :: rest => do
    let shape ← shape? v
    let shapes ← shapes? rest
    some (shape :: shapes)

end

mutual

def leaves : Value → List Value
  | .list items => leavesOf items
  | .array a => a.entries.map ofFloat
  | v => [v]

def leavesOf : List Value → List Value
  | [] => []
  | v :: rest => leaves v ++ leavesOf rest

end

def maximalRank : Nat := 64

def toLeaves (v : Value) : Except Failure (Grid Value) :=
  match v.shape? with
  | none => .error .uneven
  | some shape =>
    if maximalRank < shape.length then .error .uneven
    else
      match Grid.ofEntries? shape v.leaves with
      | some a => .ok a
      | none => .error .uneven

def toGrid (v : Value) : Except Failure (Grid Float) := do
  let leaves ← v.toLeaves
  let entries ← leaves.entries.mapM toEntry
  match Grid.ofEntries? leaves.shape entries with
  | some a => .ok a
  | none => .error .uneven

/-- How two numbers compare; nothing compares with an undefined one, and other values are no
numbers. -/
def compareNumbers : Value → Value → Except Failure (Option Ordering)
  | .real x, .real y =>
    .ok (if x.value < y.value then some .lt else if y.value < x.value then some .gt
      else if x.value == y.value then some .eq else none)
  | .real x, v => do
    let n ← v.toInt
    .ok ((compareInt n x.value).map Ordering.swap)
  | v, .real x => do
    let n ← v.toInt
    .ok (compareInt n x.value)
  | v, w => do
    let m ← v.toInt
    let n ← w.toInt
    .ok (some (compare m n))

def isBelow (v w : Value) : Except Failure Bool := do
  return (← compareNumbers v w) == some .lt

def isAtMost (v w : Value) : Except Failure Bool := do
  let order ← compareNumbers v w
  return order == some .lt || order == some .eq

end RootFinding.Value
