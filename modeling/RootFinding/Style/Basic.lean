import RootFinding.Value.Numeric

/-!
# Print styles

A style may hang below a parent. Its level counts the styles from it up to the top, and decorating
styles put four characters in front of a text before they hand it to their parent. Styles are
shared: one may be known under several names, and hanging it anew is seen everywhere.
-/
namespace RootFinding.Style

inductive Decoration where
  | plain
  | tab
  | dots
  deriving DecidableEq, Repr

def Decoration.lead : Decoration → String
  | .plain => ""
  | .tab => "    "
  | .dots => "... "

/-- A style and the place of its parent. -/
structure Node where
  decoration : Decoration
  parent : Option Nat := none
  deriving DecidableEq, Repr

abbrev Forest := Array Node

namespace Forest

/-- The level of a style, looking at no more than `fuel` styles on the way up. -/
def levelWithin (forest : Forest) : (fuel place : Nat) → Except Failure Nat
  | 0, _ => .error .cyclicStyles
  | fuel + 1, place =>
    match forest[place]? with
    | none => .error .noSuchItem
    | some node =>
      match node.parent with
      | none => .ok 1
      | some parent => do return (← levelWithin forest fuel parent) + 1

/-- The level of a style: one at the top, and one more than that of its parent below. More styles
than there are lie only on the way around a cycle. -/
def level (forest : Forest) (place : Nat) : Except Failure Nat :=
  levelWithin forest (forest.size + 1) place

/-- A lead in front of a text; other values have no front. -/
def putFront (lead : String) : Value → Except Failure Value
  | .text s => .ok (.text (lead ++ s))
  | _ => .error .wrongKind

/-- Apply a style, looking at no more than `fuel` styles on the way up. -/
def applyWithin (forest : Forest) : (fuel place : Nat) → Value → Except Failure Value
  | 0, _, _ => .error .cyclicStyles
  | fuel + 1, place, v =>
    match forest[place]? with
    | none => .error .noSuchItem
    | some node =>
      match node.decoration, node.parent with
      | .plain, _ => .ok v
      | _, none => .ok v
      | decoration, some parent => do applyWithin forest fuel parent (← putFront decoration.lead v)

/-- Apply a style: plain ones leave a text as it is, the others decorate it below a parent. -/
def apply (forest : Forest) (place : Nat) (v : Value) : Except Failure Value :=
  applyWithin forest (forest.size + 1) place v

def hang (forest : Forest) (place : Nat) (parent : Option Nat) : Forest :=
  match forest[place]? with
  | some node => forest.setIfInBounds place { node with parent }
  | none => forest

theorem size_hang (forest : Forest) (place : Nat) (parent : Option Nat) :
    (forest.hang place parent).size = forest.size := by
  unfold hang
  split <;> simp

theorem getElem?_hang_of_ne (forest : Forest) {place other : Nat} (parent : Option Nat)
    (h : place ≠ other) : (forest.hang place parent)[other]? = forest[other]? := by
  unfold hang
  split
  · simp [h]
  · rfl

end Forest
end RootFinding.Style
