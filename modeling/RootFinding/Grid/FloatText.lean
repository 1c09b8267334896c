import RootFinding.Decimal.Shortest
import RootFinding.Grid.Layout

/-!
# Columns of doubles

All numbers of a grid are written in one notation and padded to one width. Large magnitudes, and in
the trimmed style also small or widely spread ones, switch the whole grid to scientific notation.
-/
namespace RootFinding.Layout
open Number Decimal

structure FloatStyle where
  /-- The number of decimals, or the largest one when trimmed. -/
  places : Nat
  /-- Write the shortest digits that read back, without trailing zeros. -/
  trimmed : Bool
  /-- Keep a column for the sign even where no number is negative. -/
  signColumn : Bool

structure Pieces where
  whole : String
  decimals : String
  exponent : Int := 0

def finite? (x : Float) : Option (Bool × Nat × Int) :=
  match Exact.ofFloat x with
  | .finite negative mantissa exponent => some (negative, mantissa, exponent)
  | _ => none

/-- The largest number of characters of a number, its exponent not counted. -/
def maximalWord : Nat := 16383

def trimDecimals (decimals : String) : String := String.ofList (trimZeros decimals.toList)

def positional (style : FloatStyle) (mantissa : Nat) (exponent : Int) : Parts :=
  let (num, den) := fraction mantissa exponent
  let full := fixed style.places num den
  if style.trimmed then
    if mantissa = 0 then ⟨"0", ""⟩ else
      let (ds, x) := shortest mantissa exponent
      let short := aroundPoint ds x
      if short.decimals.length ≤ style.places then short
      else ⟨full.whole, trimDecimals full.decimals⟩
  else full

def exponential (style : FloatStyle) (mantissa : Nat) (exponent : Int) : Scientific :=
  let (num, den) := fraction mantissa exponent
  let full := scientific style.places num den
  if style.trimmed then
    if mantissa = 0 then ⟨"0", "", 0⟩ else
      let (ds, x) := shortest mantissa exponent
      if ds.length ≤ style.places + 1 then
        ⟨String.ofList (ds.take 1), String.ofList (ds.drop 1), x⟩
      else ⟨full.whole, trimDecimals full.decimals, full.exponent⟩
  else full

def magnitudes (xs : List Float) : Option (Float × Float) :=
  match (xs.filter (· != 0)).map Float.abs with
  | [] => none
  | x :: rest =>
    some (rest.foldl (fun m y => if m < y then y else m) x,
      rest.foldl (fun m y => if y < m then y else m) x)

def usesExponent (style : FloatStyle) (xs : List Float) : Bool :=
  match magnitudes xs with
  | none => false
  | some (largest, smallest) =>
    1e8 ≤ largest || (style.trimmed && (smallest < 1e-4 || 1000 < largest / smallest))

structure Columns where
  exponent : Bool
  left : Nat
  right : Nat
  decimals : Nat
  exponentDigits : Nat

def longest (ns : List Nat) : Nat := ns.foldl max 0

def Columns.fit (style : FloatStyle) (shown : List Float) : Columns :=
  let numbers := shown.filterMap finite?
  let finiteOnes := shown.filter Float.isFinite
  let exponent := usesExponent style finiteOnes
  let signWidth (negative : Bool) : Nat := if negative then 1 else 0
  let parts : List (Bool × Pieces) := numbers.map fun (negative, m, e) =>
    if exponent then
      let s := exponential style m e
      let room := maximalWord - (signWidth negative + 2)
      (negative, ⟨s.whole, String.ofList (s.decimals.toList.take room), s.exponent⟩)
    else
      let s := positional style m e
      (negative, ⟨s.whole, s.decimals, 0⟩)
  let decimals := longest (parts.map fun (_, p) => p.decimals.length)
  let exponentDigits :=
    longest (parts.map fun (_, p) => max 2 (digits p.exponent.natAbs).length)
  let left := longest (parts.map fun (negative, p) => signWidth negative + p.whole.length)
  let right := if exponent then exponentDigits + 2 + decimals else decimals
  let left := if style.signColumn && !parts.any (·.1) then left + 1 else left
  let left :=
    if shown.length = finiteOnes.length then left
    else
      let minus := style.signColumn || shown.any fun x => x.isInf && x < 0
      max (max left (3 - (right + 1))) (3 + (if minus then 1 else 0) - (right + 1))
  ⟨exponent, left, right, decimals, exponentDigits⟩

/-- Whether no number is longer than a number may be. With an exponent, decimals without room are
left out. -/
def Columns.fits (columns : Columns) : Bool :=
  columns.exponent || columns.left + 1 + columns.right ≤ maximalWord

def padStart (width : Nat) (s : String) : String := blanks (width - s.length) ++ s

def padEnd (width : Nat) (s : String) : String := s ++ blanks (width - s.length)

/-- One number in the shared widths. With an exponent all numbers show as many digits of their exact
value as the longest one. -/
def Columns.cell (style : FloatStyle) (columns : Columns) (x : Float) : String :=
  match Exact.ofFloat x with
  | .undefined => padStart (columns.left + columns.right + 1) "nan"
  | .infinite negative =>
    padStart (columns.left + columns.right + 1) (Lead.nothing.sign negative ++ "inf")
  | .finite negative mantissa exponent =>
    let sign := Lead.nothing.sign negative
    if columns.exponent then
      let (num, den) := fraction mantissa exponent
      let s := scientific (min columns.decimals (maximalWord - 1 - columns.left)) num den
      padStart columns.left (sign ++ s.whole) ++ "." ++ s.decimals ++
        "e" ++ exponentText columns.exponentDigits s.exponent
    else
      let s := positional style mantissa exponent
      padStart columns.left (sign ++ s.whole) ++ "." ++ padEnd columns.right s.decimals

def floatWords (style : FloatStyle) (a : Grid Float) : Grid String :=
  let columns := Columns.fit style (shown a)
  a.map (columns.cell style)

def FloatStyle.brief : FloatStyle := ⟨8, true, false⟩

/-- Numbers with a fixed number of decimals and a sign column. More decimals than characters do not
fit. -/
def FloatStyle.aligned (places : Nat) : FloatStyle := ⟨min places maximalWord, false, true⟩

def briefText (a : Grid Float) : String := text { separator := " " } (floatWords .brief a)

end RootFinding.Layout
