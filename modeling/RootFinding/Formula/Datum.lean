import RootFinding.Function
import RootFinding.Scalar

/-!
# Data of expressions

An expression has a number for its value, or a row of an argument with several axes. Rows are lists
of items, which are the parts of the argument below its second axis. They can be joined and compared
but not calculated with.
-/
namespace RootFinding
open Number

/-- The value of an expression: a number, or items of the argument by their places, counted row by
row. -/
inductive Datum where
  | number (x : Double)
  | items (places : List Nat)

namespace Grid

/-- The entries of an item, which is what a place along the first two axes holds. -/
def item (a : Grid Float) (place : Nat) : List Float :=
  let size := extent (a.shape.drop 2)
  (a.entries.drop (place * size)).take size

def row? (a : Grid Float) (place : Nat) : Option Datum :=
  match a.shape with
  | [] => none
  | [_] => (a.entries[place]?).map fun x => .number (.ofFloat x)
  | n :: m :: _ => if place < n then some (.items (List.range' (place * m) m)) else none

/-- Whether the first entry that differs is the smaller one; nothing for equal entries. -/
def firstBelow? : List Float → List Float → Option Bool
  | x :: xs, y :: ys => if x == y then firstBelow? xs ys else some (decide (x < y))
  | _, _ => none

/-- Whether items come before others in the order of lists. An item equals itself even where it is
undefined. -/
def itemsBelow (a : Grid Float) : List Nat → List Nat → Bool
  | _, [] => false
  | [], _ :: _ => true
  | p :: ps, q :: qs =>
    if p = q then a.itemsBelow ps qs
    else
      match firstBelow? (a.item p) (a.item q) with
      | some below => below
      | none => a.itemsBelow ps qs

end Grid

def position? (length : Nat) (place : Int) : Option Nat :=
  if 0 ≤ place then if place.toNat < length then some place.toNat else none
  else if -(length : Int) ≤ place then some (place + length).toNat
  else none

namespace Argument

/-- What a place of the argument holds; a lone number is at the only place. -/
def component (x : Argument) (place : Int) : Except Failure Datum :=
  let found := match x with
    | .number x => (position? 1 place).map fun _ => .number x
    | .array a => (position? (a.shape.headD 1) place).bind a.row?
  match found with
  | some d => .ok d
  | none => .error .noSuchItem

/-- Whether one datum is below another; a number and items do not compare. -/
def isBelow (x : Argument) : Datum → Datum → Except Failure Bool
  | .number a, .number b => .ok (decide (a < b))
  | .items ps, .items qs =>
    match x with
    | .number _ => .error .wrongKind
    | .array a => .ok (a.itemsBelow ps qs)
  | _, _ => .error .wrongKind

def valueOf (x : Argument) : Datum → Value
  | .number y => .real y
  | .items places =>
    match x with
    | .number _ => .nothing
    | .array a =>
      .list (places.map fun p => Value.ofEntries Value.ofFloat (a.shape.drop 2) (a.item p))

end Argument
end RootFinding
