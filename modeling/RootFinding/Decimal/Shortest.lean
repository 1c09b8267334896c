import RootFinding.Decimal.Fixed

/-!
# Shortest decimals of doubles

The fewest significant digits that read back as the same double. The reals that round to
`mantissa * 2 ^ exponent` form an interval, closed when the mantissa is even; on each decimal grid
the two neighbours of the value are tried, and the first grid with a hit wins.
-/
namespace RootFinding.Decimal
open Number

/-- The reals that round to a positive double: `low` and `high` bound them in units of
`2 ^ (exponent - 2)`, where the double itself is four times its mantissa. -/
structure Rounding where
  low : Nat
  value : Nat
  high : Nat
  closed : Bool
  exponent : Int

/-- The interval of a positive double. Below a power of two the grid is twice as fine. -/
def Rounding.ofDouble (mantissa : Nat) (exponent : Int) : Rounding where
  low := if mantissa = Nat.pow 2 52 && -1074 < exponent then 4 * mantissa - 1 else 4 * mantissa - 2
  value := 4 * mantissa
  high := 4 * mantissa + 2
  closed := mantissa % 2 == 0
  exponent := exponent - 2

/-- Whether `n * 10 ^ unit` lies in the interval. -/
def Rounding.contains (i : Rounding) (unit : Int) (n : Nat) : Bool :=
  let point := n * Nat.pow 10 unit.toNat * Nat.pow 2 (-i.exponent).toNat
  let scale (bound : Nat) : Nat := bound * Nat.pow 2 i.exponent.toNat * Nat.pow 10 (-unit).toNat
  if i.closed then scale i.low ≤ point && point ≤ scale i.high
  else scale i.low < point && point < scale i.high

/-- The neighbour of the value on the grid `10 ^ unit` that lies in the interval; of two the
nearer, and the even one at equal distance. -/
def Rounding.hit? (i : Rounding) (unit : Int) : Option Nat :=
  let num := i.value * Nat.pow 2 i.exponent.toNat * Nat.pow 10 (-unit).toNat
  let den := Nat.pow 2 (-i.exponent).toNat * Nat.pow 10 unit.toNat
  let below := num / den
  match i.contains unit below, i.contains unit (below + 1) with
  | true, true => some (roundDiv num den)
  | true, false => some below
  | false, true => some (below + 1)
  | false, false => none

/-- Try grids of `count`, `count + 1`, … significant digits. -/
def Rounding.search (i : Rounding) (first : Int) (count : Nat) : Nat → Nat × Int
  | 0 => (i.value, 0)
  | more + 1 =>
    let unit := first - count + 1
    match i.hit? unit with
    | some n => (n, unit)
    | none => i.search first (count + 1) more

/-- The shortest digits of a positive double and the exponent of the first digit. Seventeen digits
always suffice. -/
def shortest (mantissa : Nat) (exponent : Int) : List Char × Int :=
  let (num, den) := fraction mantissa exponent
  let (n, unit) := (Rounding.ofDouble mantissa exponent).search (Decimal.exponent num den) 1 17
  let ds := digits n
  (trimZeros ds, unit + ds.length - 1)

/-- Digits with the exponent of the first one on the two sides of a point. -/
def aroundPoint (ds : List Char) (x : Int) : Parts :=
  if x < 0 then ⟨"0", String.ofList (List.replicate (-x - 1).toNat '0' ++ ds)⟩
  else
    let whole := x.toNat + 1
    let padded := ds ++ List.replicate (whole - ds.length) '0'
    ⟨String.ofList (padded.take whole), String.ofList (padded.drop whole)⟩

/-- A magnitude in its shortest decimals: positional for exponents from -4 to 15 with at least one
decimal, else scientific without needless zeros. -/
def shortestMagnitude (ds : List Char) (x : Int) : String :=
  if x < -4 || 16 ≤ x then
    joinPoint (String.ofList (ds.take 1)) (String.ofList (ds.drop 1)) ++ "e" ++ exponentText 2 x
  else
    let parts := aroundPoint ds x
    parts.whole ++ "." ++ if parts.decimals.isEmpty then "0" else parts.decimals

def shortestText (x : Float) : String :=
  match Exact.ofFloat x with
  | .undefined => "nan"
  | .infinite negative => Lead.nothing.sign negative ++ "inf"
  | .finite negative mantissa exponent =>
    Lead.nothing.sign negative ++
      if mantissa = 0 then "0.0" else
        let (ds, x) := shortest mantissa exponent
        shortestMagnitude ds x

end RootFinding.Decimal
