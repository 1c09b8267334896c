/-!
# Doubles as exact numbers

A finite double is `± mantissa * 2 ^ exponent`. `Exact.ofFloat` reads that form off the bits, and
`nearest` goes the other way: it is the double next to a given fraction, with halves going to the
even mantissa.
-/
namespace RootFinding.Number

/-- The exact value of a double. -/
inductive Exact where
  | finite (negative : Bool) (mantissa : Nat) (exponent : Int)
  | infinite (negative : Bool)
  | undefined
  deriving DecidableEq, Repr

def Exact.ofBits (bits : Nat) : Exact :=
  let negative := bits / Nat.pow 2 63 % 2 == 1
  let biased := bits / Nat.pow 2 52 % Nat.pow 2 11
  let fraction := bits % Nat.pow 2 52
  if biased = 2047 then
    if fraction = 0 then .infinite negative else .undefined
  else if biased = 0 then .finite negative fraction (-1074)
  else .finite negative (fraction + Nat.pow 2 52) ((biased : Int) - 1075)

def Exact.ofFloat (x : Float) : Exact := .ofBits x.toBits.toNat

/-- The quotient rounded to the nearest natural number; a half goes to the even neighbour. -/
def roundDiv (num den : Nat) : Nat :=
  let q := num / den
  let r := num % den
  if 2 * r < den then q
  else if den < 2 * r then q + 1
  else if q % 2 = 0 then q else q + 1

theorem roundDiv_le (num den : Nat) : 2 * (roundDiv num den * den) ≤ 2 * num + den := by
  have h := Nat.div_add_mod num den
  rw [Nat.mul_comm] at h
  simp only [roundDiv]
  split
  · omega
  · split
    · rw [Nat.add_mul]
      omega
    · split
      · omega
      · rw [Nat.add_mul]
        omega

theorem le_roundDiv (num : Nat) {den : Nat} (hd : 0 < den) :
    2 * num ≤ 2 * (roundDiv num den * den) + den := by
  have h := Nat.div_add_mod num den
  have hr := Nat.mod_lt num hd
  rw [Nat.mul_comm] at h
  simp only [roundDiv]
  split
  · omega
  · split
    · rw [Nat.add_mul]
      omega
    · split
      · omega
      · rw [Nat.add_mul]
        omega

/-- A quotient halfway between two neighbours is rounded to an even number. -/
theorem even_roundDiv_of_half {num den : Nat} (h : 2 * (num % den) = den) :
    roundDiv num den % 2 = 0 := by
  simp only [roundDiv]
  rw [if_neg (by omega), if_neg (by omega)]
  split <;> omega

/-- The bit pattern of positive infinity, which is the first pattern past the finite ones. -/
def infinityBits : Nat := 0x7ff0000000000000

/-- The bits of the double nearest to `num / den`: its mantissa on the grid `2 ^ e` has 53 bits, or
fewer where the grid reaches its smallest step `2 ^ (-1074)`. -/
def nearestBits (num den : Nat) : Nat :=
  if num = 0 then 0 else
    let guess : Int := max ((num.log2 : Int) - den.log2 - 53) (-1074)
    let scaled (e : Int) : Nat × Nat := (num * Nat.pow 2 (-e).toNat, den * Nat.pow 2 e.toNat)
    let e := if (scaled guess).1 / (scaled guess).2 < Nat.pow 2 53 then guess else guess + 1
    let mantissa := roundDiv (scaled e).1 (scaled e).2
    min ((e + 1074).toNat * Nat.pow 2 52 + mantissa) infinityBits

/-- The double nearest to a signed fraction, infinite beyond the largest double. -/
def nearest (negative : Bool) (num den : Nat) : Float :=
  let x := Float.ofBits (nearestBits num den).toUInt64
  if negative then -x else x

/-- The double nearest to an integer, absent where that would be infinite. -/
def ofInt? (n : Int) : Option Float :=
  if nearestBits n.natAbs 1 < infinityBits then some (nearest (n < 0) n.natAbs 1) else none

/-- The double nearest to a quotient of integers, absent where that would be infinite. -/
def quotient? (a b : Int) : Option Float :=
  if nearestBits a.natAbs b.natAbs < infinityBits then
    some (nearest ((a < 0) != (b < 0)) a.natAbs b.natAbs)
  else none

/-- The sign bit of a double that is a number. -/
def isNegative (x : Float) : Bool := x.toBits.toNat / Nat.pow 2 63 == 1 && !x.isNaN

def compareExact (n : Int) (negative : Bool) (mantissa : Nat) (exponent : Int) : Ordering :=
  let signed : Int := if negative then -mantissa else mantissa
  compare (n * Nat.pow 2 (-exponent).toNat) (signed * Nat.pow 2 exponent.toNat)

/-- How an integer compares with a double; nothing compares with an undefined value. -/
def compareInt (n : Int) (x : Float) : Option Ordering :=
  match Exact.ofFloat x with
  | .undefined => none
  | .infinite negative => some (if negative then .gt else .lt)
  | .finite negative mantissa exponent => some (compareExact n negative mantissa exponent)

def truncate? (x : Float) : Option Int :=
  match Exact.ofFloat x with
  | .finite negative mantissa exponent =>
    let size := mantissa * Nat.pow 2 exponent.toNat / Nat.pow 2 (-exponent).toNat
    some (if negative then -(size : Int) else size)
  | _ => none

end RootFinding.Number
