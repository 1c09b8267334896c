import RootFinding.Value.Numeric

/-!
# Grids with entries of one kind

Nested lists of numbers keep the narrowest kind that holds all their entries: truth values, signed
or unsigned words of 64 bits, doubles, or values of any kind.
-/
namespace RootFinding

inductive Kind where
  | truth
  | signed
  | unsigned
  | real
  | text
  | any
  deriving DecidableEq, Repr

namespace Kind

/-- The narrowest kind that holds both. Signed and unsigned words meet in the doubles. -/
def join : Kind → Kind → Kind
  | .any, _ | _, .any => .any
  | .text, _ | _, .text => .text
  | .real, _ | _, .real => .real
  | .signed, .unsigned | .unsigned, .signed => .real
  | .truth, k => k
  | k, .truth => k
  | .signed, .signed => .signed
  | .unsigned, .unsigned => .unsigned

def ofLeaf : Value → Kind
  | .truth _ => .truth
  | .int n =>
    if Int64.minValue.toInt ≤ n && n ≤ Int64.maxValue.toInt then .signed
    else if 0 ≤ n && n < UInt64.size then .unsigned
    else .any
  | .real _ => .real
  | .text _ => .text
  | _ => .any

/-- The kind of several values; doubles where there are none. -/
def ofLeaves : List Value → Kind
  | [] => .real
  | v :: rest => rest.foldl (fun k w => k.join (ofLeaf w)) (ofLeaf v)

end Kind

inductive Typed where
  | truth (a : Grid Bool)
  | signed (a : Grid Int64)
  | unsigned (a : Grid UInt64)
  | real (a : Grid Float)
  | text (a : Grid String)
  | any (a : Grid Value)

namespace Typed

def integer (v : Value) : Int := v.integer?.getD 0

def double : Value → Float
  | .real x => x.value
  | v => nearest (integer v < 0) (integer v).natAbs 1
where
  nearest := Number.nearest

/-- A text as an entry: null characters at its end only fill it up. -/
def trimNull (s : String) : String :=
  String.ofList (s.toList.reverse.dropWhile (· == '\x00')).reverse

def ofKind (kind : Kind) (a : Grid Value) : Typed :=
  match kind with
  | .truth => .truth (a.map fun v => integer v != 0)
  | .signed => .signed (a.map fun v => Int64.ofInt (integer v))
  | .unsigned => .unsigned (a.map fun v => UInt64.ofInt (integer v))
  | .real => .real (a.map double)
  | .text => .text (a.map fun v => trimNull v.shown)
  | .any => .any a

def ofValue (v : Value) : Except Failure Typed := do
  let leaves ← v.toLeaves
  return ofKind (.ofLeaves leaves.entries) leaves

def shape : Typed → List Nat
  | .truth a => a.shape
  | .signed a => a.shape
  | .unsigned a => a.shape
  | .real a => a.shape
  | .text a => a.shape
  | .any a => a.shape

def leaves : Typed → Grid Value
  | .truth a => a.map .truth
  | .signed a => a.map fun n => .int n.toInt
  | .unsigned a => a.map fun n => .int n.toNat
  | .real a => a.map .ofFloat
  | .text a => a.map .text
  | .any a => a

end Typed
end RootFinding
