import RootFinding.Number.Binary

/-!
# Decimal digits of exact fractions

Positive fractions `num / den` rounded on a decimal grid in exact arithmetic, halves to the even
digit.
-/
namespace RootFinding.Decimal
open Number

/-- A fraction `mantissa * 2 ^ exponent` as numerator and denominator. -/
def fraction (mantissa : Nat) (exponent : Int) : Nat × Nat :=
  (mantissa * Nat.pow 2 exponent.toNat, Nat.pow 2 (-exponent).toNat)

/-- Whether `10 ^ x` is at most `num / den`. -/
def powerAtMost (x : Int) (num den : Nat) : Bool :=
  Nat.pow 10 x.toNat * den ≤ num * Nat.pow 10 (-x).toNat

/-- The exponent `x` with `10 ^ x ≤ num / den < 10 ^ (x + 1)`, for a positive fraction. The start is
below it by at most two, since 0.30102 and 0.30103 enclose the decimal logarithm of two. -/
def exponent (num den : Nat) : Int :=
  let binary : Int := (num.log2 : Int) - den.log2 - 1
  let start := if 0 ≤ binary then binary * 30102 / 100000 else binary * 30103 / 100000
  if powerAtMost (start + 2) num den then start + 2
  else if powerAtMost (start + 1) num den then start + 1
  else start

/-- The fraction in units of `10 ^ unit`, rounded. -/
def inUnits (unit : Int) (num den : Nat) : Nat :=
  roundDiv (num * Nat.pow 10 (-unit).toNat) (den * Nat.pow 10 unit.toNat)

def digits (n : Nat) : List Char := Nat.toDigits 10 n

def padLeft (width : Nat) (ds : List Char) : List Char :=
  List.replicate (width - ds.length) '0' ++ ds

theorem length_padLeft (width : Nat) (ds : List Char) :
    (padLeft width ds).length = max width ds.length := by
  rw [padLeft, List.length_append, List.length_replicate]
  omega

def trimZeros (ds : List Char) : List Char :=
  (ds.reverse.dropWhile (· == '0')).reverse

/-- The first `count` significant digits of a positive fraction, and the exponent of the first;
a carry into a new digit moves the exponent. -/
def leading (count : Nat) (num den : Nat) : Nat × Int :=
  let x := exponent num den
  let n := inUnits (x - count + 1) num den
  if n = Nat.pow 10 count then (Nat.pow 10 (count - 1), x + 1) else (n, x)

end RootFinding.Decimal
