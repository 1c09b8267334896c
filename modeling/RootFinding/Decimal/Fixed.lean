import RootFinding.Decimal.Digits

/-!
# Fixed and scientific notation

A magnitude written with a given number of decimals, positionally or with an exponent. The digits
are those of the exact value, rounded half to even.
-/
namespace RootFinding.Decimal
open Number

/-- The parts of a positional number on the two sides of its point. -/
structure Parts where
  whole : String
  decimals : String
  deriving DecidableEq, Repr

/-- The magnitude `num / den` with `places` decimals. -/
def fixed (places num den : Nat) : Parts :=
  let ds := padLeft (places + 1) (digits (inUnits (-(places : Int)) num den))
  let cut := ds.length - places
  ⟨String.ofList (ds.take cut), String.ofList (ds.drop cut)⟩

/-- A number with one digit before its point, times a power of ten. -/
structure Scientific where
  whole : String
  decimals : String
  exponent : Int
  deriving DecidableEq, Repr

/-- The magnitude `num / den` with `places` decimals after its first significant digit. -/
def scientific (places num den : Nat) : Scientific :=
  let (n, x) := if num = 0 then (0, 0) else leading (places + 1) num den
  let ds := padLeft (places + 1) (digits n)
  ⟨String.ofList (ds.take 1), String.ofList (ds.drop 1), x⟩

/-- An exponent with its sign and at least `width` digits. -/
def exponentText (width : Nat) (x : Int) : String :=
  (if x < 0 then "-" else "+") ++ String.ofList (padLeft width (digits x.natAbs))

/-- What stands before a number that is not negative. -/
inductive Lead where
  | nothing
  | blank
  | plus
  deriving DecidableEq, Repr

def Lead.sign (lead : Lead) (negative : Bool) : String :=
  if negative then "-" else
    match lead with
    | .nothing => ""
    | .blank => " "
    | .plus => "+"

/-- Join a whole part and decimals; the point is left out where there are no decimals. -/
def joinPoint (whole decimals : String) : String :=
  if decimals.isEmpty then whole else whole ++ "." ++ decimals

/-- A double with `places` decimals. -/
def fixedText (lead : Lead) (places : Nat) (x : Float) : String :=
  match Exact.ofFloat x with
  | .undefined => lead.sign false ++ "nan"
  | .infinite negative => lead.sign negative ++ "inf"
  | .finite negative mantissa exponent =>
    let (num, den) := fraction mantissa exponent
    let parts := fixed places num den
    lead.sign negative ++ joinPoint parts.whole parts.decimals

structure Letters where
  mark : String
  infinite : String
  undefined : String

def Letters.small : Letters := ⟨"e", "inf", "nan"⟩

def Letters.capital : Letters := ⟨"E", "INF", "NAN"⟩

/-- A double in scientific notation with `places` decimals. -/
def scientificText (letters : Letters) (lead : Lead) (places : Nat) (x : Float) : String :=
  match Exact.ofFloat x with
  | .undefined => lead.sign false ++ letters.undefined
  | .infinite negative => lead.sign negative ++ letters.infinite
  | .finite negative mantissa exponent =>
    let (num, den) := fraction mantissa exponent
    let s := scientific places num den
    lead.sign negative ++ joinPoint s.whole s.decimals ++ letters.mark ++ exponentText 2 s.exponent

/-- A double with six significant digits at most and no trailing zeros: positional for exponents
from -4 to 5, else scientific. -/
def generalText (x : Float) : String :=
  match Exact.ofFloat x with
  | .undefined => "nan"
  | .infinite negative => Lead.nothing.sign negative ++ "inf"
  | .finite negative mantissa exponent =>
    let (num, den) := fraction mantissa exponent
    let s := scientific 5 num den
    let trimmed (ds : String) : String := String.ofList (trimZeros ds.toList)
    Lead.nothing.sign negative ++
      if -4 ≤ s.exponent && s.exponent < 6 then
        let parts := fixed (5 - s.exponent).toNat num den
        joinPoint parts.whole (trimmed parts.decimals)
      else joinPoint s.whole (trimmed s.decimals) ++ "e" ++ exponentText 2 s.exponent

end RootFinding.Decimal
