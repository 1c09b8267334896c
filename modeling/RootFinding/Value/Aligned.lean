import RootFinding.Grid.Typed

/-!
# Values with a fixed number of decimals

A single number is written with a blank or a minus in front. Several numbers stand in aligned
columns between brackets.
-/
namespace RootFinding.Aligned
open Layout

/-- The number of decimals that a text of decimal digits stands for; no digits mean none. -/
def places? (s : String) : Option Nat :=
  s.toList.foldlM (fun n c =>
    if c.isDigit then some (10 * n + (c.toNat - '0'.toNat))
    else (Text.wideDigit? c).map fun d => 10 * n + d) 0

def maximalPlaces : Nat := 2147483647

def precision (v : Value) : Except Failure Nat :=
  match places? v.shown with
  | some n => if n ≤ Value.maximalLength then .ok n else .error .badPrecision
  | none => .error .badPrecision

/-- How a single number is written: the number of its decimals, and whether there is a blank in
front of one that is not negative. -/
structure NumberOptions where
  places : Value := .int 6
  signed : Value := .truth true
  /-- Whether there is an option besides these. -/
  unknown : Bool := false

/-- A single number with a fixed number of decimals. Their number has to be one before the number
becomes a double, and only then must not be too large. -/
def number (x : Value) (options : NumberOptions) : Except Failure String :=
  if options.unknown then .error .unknownOption
  else do
    let lead : Decimal.Lead := if ← options.signed.condition then .blank else .nothing
    match x with
    | .text _ => .error .badPrecision
    | .truth _ | .int _ | .real _ => do
      let n ← precision options.places
      let value ← x.toFloat
      if n ≤ maximalPlaces then return Decimal.fixedText lead n value else throw .badPrecision
    | _ => .error .wrongKind

/-- Integers right-aligned in a common width, with a blank for the sign unless one is negative. -/
def integerWords (shown : List Int) (a : Grid Int) : Grid String :=
  let width (n : Int) : Nat := (toString n).length
  let largest := shown.foldl max (shown.headD 0)
  let smallest := shown.foldl min (shown.headD 0)
  let blank := decide (0 ≤ smallest)
  let common := max (width largest + if blank then 1 else 0) (width smallest)
  a.map fun n => padStart common ((if blank then " " else "") ++ toString n)

def ofIntegers (a : Grid Int) : Grid String :=
  integerWords (shown a) a

def columns (words : Grid String) : String := text { separator := ", " } words

/-- The number of decimals of several numbers; eight unless given. -/
def columnPlaces : Value → Except Failure Int
  | .nothing => .ok 8
  | v => v.toInt

def words (places : Int) : Typed → Except Failure (Grid String)
  | .truth a => .ok (a.map fun b => if b then " True" else "False")
  | .signed a => .ok (ofIntegers (a.map Int64.toInt))
  | .unsigned a => .ok (ofIntegers (a.map fun n => (n.toNat : Int)))
  | .real a =>
    if a.size = 0 then .ok (a.map fun _ => "")
    else if places < 0 then .error .badPrecision
    else if maximalPlaces < places && (shown a).any Float.isFinite then .error .tooLarge
    else if (Columns.fit (.aligned places.toNat) (shown a)).fits then
      .ok (floatWords (.aligned places.toNat) a)
    else .error .tooWide
  | .text a => .ok (a.map Text.quoted)
  | .any a => .ok (a.map Value.nestedText)

/-- How a value of any shape is written: the number of its decimals. -/
structure ValueOptions where
  places : Value := .int 6
  /-- Whether there is an option besides this. -/
  unknown : Bool := false

/-- A value of any shape: a lone number by itself, several in columns. -/
def value (x : Value) (options : ValueOptions) : Except Failure String := do
  if options.unknown then throw .unknownOption
  let a ← Typed.ofValue x
  match a.leaves.entries with
  | [entry] => number entry { places := options.places }
  | _ =>
    let n ← columnPlaces options.places
    return columns (← words n a)

def grid (a : Grid Float) : String :=
  match a.entries with
  | [x] => Decimal.fixedText .blank 6 x
  | _ => columns (floatWords (.aligned 6) a)

end RootFinding.Aligned
