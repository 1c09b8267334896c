import RootFinding.Number.Double

/-!
# Reading numerals

A numeral is an optional sign and digits with an optional point and exponent, or one of the words
`inf`, `infinity`, `nan` in any case. Single underscores may stand between digits, and blanks around
the whole. Digits and blanks may be those of other scripts.
-/
namespace RootFinding

namespace Text

/-- The ASCII blanks: space, tab, line feed, vertical tab, form feed and carriage return. -/
def isAsciiBlank (c : Char) : Bool :=
  c == ' ' || (9 ≤ c.toNat && c.toNat ≤ 13)

/-- The characters from U+0080 on that are blank in the Unicode character database. -/
def isWideBlank (c : Char) : Bool :=
  let n := c.toNat
  n == 0x85 || n == 0xa0 || n == 0x1680 || (0x2000 ≤ n && n ≤ 0x200a) || n == 0x2028 ||
    n == 0x2029 || n == 0x202f || n == 0x205f || n == 0x3000

/-- The zero digits from U+0080 on. Unicode 14 gives each script its ten digits in a row. -/
def wideZeros : List Nat := [
  0x660, 0x6f0, 0x7c0, 0x966, 0x9e6, 0xa66, 0xae6, 0xb66, 0xbe6, 0xc66,
  0xce6, 0xd66, 0xde6, 0xe50, 0xed0, 0xf20, 0x1040, 0x1090, 0x17e0, 0x1810,
  0x1946, 0x19d0, 0x1a80, 0x1a90, 0x1b50, 0x1bb0, 0x1c40, 0x1c50, 0xa620, 0xa8d0,
  0xa900, 0xa9d0, 0xa9f0, 0xaa50, 0xabf0, 0xff10, 0x104a0, 0x10d30, 0x11066, 0x110f0,
  0x11136, 0x111d0, 0x112f0, 0x11450, 0x114d0, 0x11650, 0x116c0, 0x11730, 0x118e0, 0x11950,
  0x11c50, 0x11d50, 0x11da0, 0x16a60, 0x16ac0, 0x16b50, 0x1d7ce, 0x1d7d8, 0x1d7e2, 0x1d7ec,
  0x1d7f6, 0x1e140, 0x1e2f0, 0x1e950, 0x1fbf0]

def wideDigit? (c : Char) : Option Nat :=
  (wideZeros.find? fun first => first ≤ c.toNat && c.toNat < first + 10).map (c.toNat - ·)

end Text

namespace Decimal
open Number

/-- Write blanks and decimal digits of other scripts in ASCII; other characters beyond ASCII have no
place in a numeral. -/
def foldCharacter? (c : Char) : Option Char :=
  if c.toNat < 0x7f then some c
  else if Text.isWideBlank c then some ' '
  else (Text.wideDigit? c).map fun d => Char.ofNat ('0'.toNat + d)

/-- Leave out underscores that stand between two digits; any other underscore is refused. -/
def dropUnderscores? : List Char → Option (List Char)
  | [] => some []
  | '_' :: _ => none
  | c :: '_' :: d :: rest =>
    if c.isDigit && d.isDigit then (dropUnderscores? (d :: rest)).map (c :: ·) else none
  | c :: rest => (dropUnderscores? rest).map (c :: ·)

/-- Cut an optional sign off; true for a minus. -/
def takeSign : List Char → Bool × List Char
  | '-' :: rest => (true, rest)
  | '+' :: rest => (false, rest)
  | rest => (false, rest)

def digitsValue (ds : List Char) : Nat :=
  ds.foldl (fun n d => 10 * n + (d.toNat - '0'.toNat)) 0

def exponentPart? : List Char → Option Int
  | [] => some 0
  | c :: rest =>
    if c == 'e' || c == 'E' then
      let (minus, ds) := takeSign rest
      if ds.isEmpty || !ds.all Char.isDigit then none
      else some (if minus then -(digitsValue ds : Int) else digitsValue ds)
    else none

/-- The double next to `± n * 10 ^ x`. Past 400 places before or behind the point it is infinite or
zero without further work. -/
def nearestDecimal (negative : Bool) (n : Nat) (x : Int) : Float :=
  let magnitude := x + (Nat.toDigits 10 n).length
  if n = 0 || magnitude < -400 then nearest negative 0 1
  else if 400 < magnitude then nearest negative (Nat.pow 10 400) 1
  else nearest negative (n * Nat.pow 10 x.toNat) (Nat.pow 10 (-x).toNat)

/-- The value of a numeral behind its sign. An undefined value has the sign too. -/
def unsigned? (negative : Bool) (cs : List Char) : Option Double :=
  let word := String.ofList (cs.map Char.toLower)
  if word == "inf" || word == "infinity" then
    some (.ofFloat (nearest negative (Nat.pow 10 400) 1))
  else if word == "nan" then some (if negative then -.undefined else .undefined)
  else
    let whole := cs.takeWhile Char.isDigit
    let rest := cs.dropWhile Char.isDigit
    let (decimals, rest) :=
      match rest with
      | '.' :: rest => (rest.takeWhile Char.isDigit, rest.dropWhile Char.isDigit)
      | rest => ([], rest)
    if whole.isEmpty && decimals.isEmpty then none
    else (exponentPart? rest).map fun x =>
      .ofFloat <| nearestDecimal negative (digitsValue (whole ++ decimals)) (x - decimals.length)

def trimBlanks (cs : List Char) : List Char :=
  let trimmed := cs.dropWhile Text.isAsciiBlank
  (trimmed.reverse.dropWhile Text.isAsciiBlank).reverse

/-- Read a numeral as the nearest double; beyond the largest double it is infinite. -/
def readNumeral? (s : String) : Option Double := do
  let folded ← s.toList.mapM foldCharacter?
  let plain ← dropUnderscores? (trimBlanks folded)
  let (negative, cs) := takeSign plain
  unsigned? negative cs

end Decimal
end RootFinding
