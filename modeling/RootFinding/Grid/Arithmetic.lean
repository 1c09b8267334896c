import RootFinding.Grid.Typed

/-!
# Arithmetic on grids of one kind

Grids that keep the kind of their entries meet in the narrowest kind that holds both: words of 64
bits wrap around, signed and unsigned words meet in the doubles, and integers of any size are exact.
A lone number adapts to the kind of the grid that it meets.
-/
namespace RootFinding.Typed
open Number

/-- An operation on two entries, for each kind. -/
structure Arithmetic where
  truth : Bool → Bool → Except Failure Bool
  signed : Int64 → Int64 → Int64
  unsigned : UInt64 → UInt64 → UInt64
  real : Float → Float → Float
  int : Int → Int → Int

/-- Sums; that of truth values is true where one of them is. -/
def addition : Arithmetic := ⟨fun x y => .ok (x || y), (· + ·), (· + ·), (· + ·), (· + ·)⟩

/-- Differences; truth values have none. -/
def subtraction : Arithmetic :=
  ⟨fun _ _ => .error .wrongKind, (· - ·), (· - ·), (· - ·), (· - ·)⟩

/-- Products; that of truth values is true where both are. -/
def multiplication : Arithmetic := ⟨fun x y => .ok (x && y), (· * ·), (· * ·), (· * ·), (· * ·)⟩

/-- The larger of two doubles; undefined when one of them is. -/
def largerFloat (x y : Float) : Float := if y ≤ x || x.isNaN then x else y

/-- Apply an operation to numbers of any kind: exactly to integers, else to the nearest doubles. -/
def applyAny (op : Arithmetic) (x y : Value) : Except Failure Value :=
  match x.integer?, y.integer? with
  | some m, some n => .ok (.int (op.int m n))
  | _, _ =>
    match x, y with
    | .text _, _ | _, .text _ => .error .wrongKind
    | _, _ => do return .ofFloat (op.real (← x.toFloat) (← y.toFloat))

def largerAny (x y : Value) : Except Failure Value := do
  return if ← y.isAtMost x then x else y

def absAny : Value → Except Failure Value
  | .real x => .ok (.real x.abs)
  | v => do return .int (← v.toInt).natAbs

def kind : Typed → Kind
  | .truth _ => .truth
  | .signed _ => .signed
  | .unsigned _ => .unsigned
  | .real _ => .real
  | .text _ => .text
  | .any _ => .any

def zip {α β : Type} (f : α → α → β) (a b : Grid α) : Except Failure (Grid β) :=
  match a.zipWith? f b with
  | some c => .ok c
  | none => .error .incompatibleShapes

def zipM {α β : Type} (f : α → α → Except Failure β) (a b : Grid α) : Except Failure (Grid β) := do
  let results ← zip f a b
  let entries ← results.entries.mapM id
  match Grid.ofEntries? results.shape entries with
  | some c => return c
  | none => throw .incompatibleShapes

def meet (a b : Typed) : Typed × Typed :=
  let k := (kind a).join (kind b)
  (Typed.ofKind k a.leaves, Typed.ofKind k b.leaves)

def combine (op : Arithmetic) (a b : Typed) : Except Failure Typed :=
  match meet a b with
  | (.truth a, .truth b) => return .truth (← zipM op.truth a b)
  | (.signed a, .signed b) => return .signed (← zip op.signed a b)
  | (.unsigned a, .unsigned b) => return .unsigned (← zip op.unsigned a b)
  | (.real a, .real b) => return .real (← zip op.real a b)
  | (.any a, .any b) => return .any (← zipM (applyAny op) a b)
  | _ => .error .wrongKind

def larger (a b : Typed) : Except Failure Typed :=
  match meet a b with
  | (.truth a, .truth b) => return .truth (← zip (· || ·) a b)
  | (.signed a, .signed b) => return .signed (← zip max a b)
  | (.unsigned a, .unsigned b) => return .unsigned (← zip max a b)
  | (.real a, .real b) => return .real (← zip largerFloat a b)
  | (.any a, .any b) => return .any (← zipM largerAny a b)
  | _ => .error .wrongKind

/-- Whether the entries of one grid are below those of another. Words compare exactly. -/
def less (a b : Typed) : Except Failure (Grid Bool) :=
  match kind a, kind b with
  | .text, _ | _, .text => .error .wrongKind
  | .signed, .unsigned | .unsigned, .signed => zipM Value.isBelow a.leaves b.leaves
  | _, _ =>
    match meet a b with
    | (.real a, .real b) => zip (fun x y => decide (x < y)) a b
    | (a, b) => zipM Value.isBelow a.leaves b.leaves

/-- The magnitudes of the entries. The least signed word is its own magnitude. -/
def magnitude : Typed → Except Failure Typed
  | .truth a => .ok (.truth a)
  | .signed a => .ok (.signed (a.map fun x => if x < 0 then -x else x))
  | .unsigned a => .ok (.unsigned a)
  | .real a => .ok (.real (a.map Float.abs))
  | .text _ => .error .wrongKind
  | .any a => do
    let entries ← a.entries.mapM absAny
    match Grid.ofEntries? a.shape entries with
    | some b => return .any b
    | none => throw .incompatibleShapes

inductive Operand where
  /-- An integer without a kind of its own. -/
  | int (n : Int)
  /-- A double that leaves the kind of integers of any size alone. -/
  | real (x : Float)
  | grid (a : Typed)

def adapt (n : Int) : Kind → Except Failure Typed
  | .truth | .signed =>
    if Int64.minValue.toInt ≤ n && n ≤ Int64.maxValue.toInt then
      .ok (.signed (.single (Int64.ofInt n)))
    else .error .tooLarge
  | .unsigned =>
    if 0 ≤ n && n < UInt64.size then .ok (.unsigned (.single (UInt64.ofInt n)))
    else .error .tooLarge
  | .real => do return .real (.single (← Value.roundInt n))
  | .text => .error .wrongKind
  | .any => .ok (.any (.single (.int n)))

/-- The operands of an operation as grids. Two lone integers have to be words. -/
def settle : Operand → Operand → Except Failure (Typed × Typed)
  | .grid a, .grid b => .ok (a, b)
  | .int n, .grid b => do return (← adapt n (kind b), b)
  | .grid a, .int n => do return (a, ← adapt n (kind a))
  | .int m, .int n => do return (← adapt m .signed, ← adapt n .signed)
  | .real x, .grid b => .ok (.real (.single x), b)
  | .grid a, .real x => .ok (a, .real (.single x))
  | .real x, .int n => do return (.real (.single x), ← adapt n .real)
  | .int n, .real x => do return (← adapt n .real, .real (.single x))
  | .real x, .real y => .ok (.real (.single x), .real (.single y))

/-- A result without axes whose entry is of any kind is a lone number again. -/
def loosen (a : Typed) : Operand :=
  match a with
  | .any b =>
    match b.shape, b.entries with
    | [], [.int n] => .int n
    | [], [.real x] => .real x.value
    | _, _ => .grid a
  | a => .grid a

def narrow : Operand → Except Failure Typed
  | .int n => Typed.ofValue (.int n)
  | .real x => Typed.ofValue (.ofFloat x)
  | .grid a => .ok a

def apply (op : Arithmetic) (x y : Operand) : Except Failure Typed := do
  let (a, b) ← settle x y
  combine op a b

end RootFinding.Typed
