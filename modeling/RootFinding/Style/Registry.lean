import RootFinding.Style.Basic

/-!
# Named print styles

Collections know shared styles by names and print texts whose level is high enough. An operation
that fails leaves all collections and styles as they were. Values are written one by one, so that a
line may break off.
-/
namespace RootFinding.Style

/-- Styles by name, and the lowest level that is printed. -/
structure Collection where
  display : Value
  named : List (Value × Nat) := []
  deriving Inhabited

structure Registry where
  forest : Forest := #[]
  collections : Array Collection := #[]

structure PrintOptions where
  display : Value := .nothing
  separator : Value := .nothing
  lineEnd : Value := .nothing
  /-- Where to print; nothing stands for the usual place, and there is no other. -/
  target : Value := .nothing
  /-- The text, where it is not the first argument. -/
  text : Option Value := none
  /-- Whether a name is given a second time. -/
  renamed : Bool := false
  /-- Whether there is an option besides these. -/
  unknown : Bool := false

structure AddOptions where
  parent : Value := .nothing
  /-- Whether there is an option besides this. -/
  unknown : Bool := false

/-- What can be done with styles and collections, which are given by place. -/
inductive Operation where
  | newCollection (arguments : List Value)
  | newStyle (decoration : Decoration) (parent : Option Nat)
  | applyStyle (style : Nat) (text : Value)
  | styleLevel (style : Nat)
  | add (collection : Nat) (name : Value) (style : Nat) (options : AddOptions)
  | apply (collection : Nat) (name text : Value)
  | print (collection : Nat) (name : Value) (arguments : List Value) (options : PrintOptions)
  | setDisplay (collection : Nat) (level : Value)
  | getDisplay (collection : Nat)

/-- What can be seen of an operation: its result, the text that it prints, and warnings. -/
structure Reply where
  result : Except Failure Value := .ok .nothing
  printed : String := ""
  warnings : List String := []

def defaultDisplay : Value := .int 10

def isName : Value → Bool
  | .list _ | .record _ _ | .array _ => false
  | _ => true

/-- Whether two values are the same name: numbers are by value, whatever their kind. -/
def sameName : Value → Value → Bool
  | .nothing, .nothing => true
  | .text s, .text t => s == t
  | v, w =>
    match Value.compareNumbers v w with
    | .ok order => order == some .eq
    | .error _ => false

namespace Collection

def find? (c : Collection) (name : Value) : Except Failure (Option Nat) :=
  if isName name then .ok ((c.named.find? fun (known, _) => sameName known name).map (·.2))
  else .error .wrongKind

end Collection

/-- Text between or behind printed values; nothing stands for the usual one. -/
def printText (usual : String) : Value → Except Failure String
  | .nothing => .ok usual
  | .text s => .ok s
  | _ => .error .wrongKind

def PrintOptions.marks (options : PrintOptions) : Except Failure (String × String) := do
  if options.unknown then throw .unknownOption
  let separator ← printText " " options.separator
  let lineEnd ← printText "\n" options.lineEnd
  match options.target with
  | .nothing => return (separator, lineEnd)
  | _ => throw .noSuchSetting

/-- Write values one after another. The first one that cannot be written ends it: those before it
are written then, with the separators behind them. -/
def writeValues (separator : String) : List Value → String × Except Failure Unit
  | [] => ("", .ok ())
  | v :: rest =>
    match v.written with
    | .error cause => ("", .error cause)
    | .ok s =>
      if rest.isEmpty then (s, .ok ())
      else
        let (line, ending) := writeValues separator rest
        (s ++ separator ++ line, ending)

def printValues (options : PrintOptions) (values : List Value) : Reply :=
  match options.marks with
  | .error cause => { result := .error cause }
  | .ok (separator, lineEnd) =>
    match writeValues separator values with
    | (line, .ok ()) => { printed := line ++ lineEnd }
    | (line, .error cause) => { result := .error cause, printed := line }

/-- A reply that warns of an unknown name, if it tells of a success and the name can be written. -/
def Reply.warnOf (name : Value) (reply : Reply) : Reply :=
  match reply.result, name.written with
  | .error _, _ => reply
  | .ok _, .error cause => { reply with result := .error cause }
  | .ok _, .ok shown => { reply with warnings := ["Format style '" ++ shown ++ "' not found."] }

namespace Registry

def collection (r : Registry) (place : Nat) : Except Failure Collection :=
  match r.collections[place]? with
  | some c => .ok c
  | none => .error .noSuchItem

def checkStyle (r : Registry) (place : Nat) : Except Failure Unit :=
  if place < r.forest.size then .ok () else .error .noSuchItem

/-- The parent that a value names: none for nothing and empty values. -/
def parentOf (c : Collection) (parent : Value) : Except Failure (Option Nat) := do
  if ← parent.condition then
    match ← c.find? parent with
    | some place => return some place
    | none => throw (.parentNotFound (← parent.written))
  else return none

/-- Look up what adding a style needs: the collection and the place of the parent. -/
def prepareAdd (r : Registry) (place : Nat) (name : Value) (style : Nat) (options : AddOptions) :
    Except Failure (Collection × Option Nat) := do
  let c ← r.collection place
  r.checkStyle style
  if options.unknown then throw .unknownOption
  if (← c.find? name).isSome then throw (.styleDefined (← name.written))
  return (c, ← parentOf c options.parent)

def setCollection (r : Registry) (place : Nat) (c : Collection) : Registry :=
  { r with collections := r.collections.setIfInBounds place c }

/-- Add a style to a collection under a new name, below a parent that the collection knows. The
style is hung anew before its name is entered. -/
def add (r : Registry) (place : Nat) (name : Value) (style : Nat) (options : AddOptions) :
    Registry × Reply :=
  match r.prepareAdd place name style options with
  | .ok (c, parent) =>
    let hung : Registry := { r with forest := r.forest.hang style parent }
    (hung.setCollection place { c with named := c.named ++ [(name, style)] }, {})
  | .error cause => (r, { result := .error cause })

def apply (r : Registry) (place : Nat) (name text : Value) : Except Failure Value := do
  let c ← r.collection place
  match ← c.find? name with
  | some style => r.forest.apply style text
  | none => throw (.styleNotFound (← name.written))

def styled? (r : Registry) (display : Value) (style : Nat) (text : Value) :
    Except Failure (Option Value) := do
  let level ← r.forest.level style
  if ← Value.isAtMost (.int level) display then
    return some (← r.forest.apply style text)
  else return none

/-- The display level that counts for printing: that of the collection unless another is given. -/
def displayFor (c : Collection) (options : PrintOptions) : Value :=
  match options.display with
  | .nothing => c.display
  | level => level

/-- The values to print for a name that is looked up, and whether it is known: the text in its style
first, or as it is for an unknown name. None are printed where the level of the style is too high. -/
def namedLine? (r : Registry) (c : Collection) (name text : Value) (rest : List Value)
    (options : PrintOptions) : Except Failure (Option (List Value × Bool)) := do
  match ← c.find? name with
  | none => return some (text :: rest, false)
  | some style =>
    match ← r.styled? (displayFor c options) style text with
    | none => return none
    | some text => return some (text :: rest, true)

/-- The text to print and the values behind it. The text is the first argument or an option, and
empty without either. -/
def textToPrint (arguments : List Value) (options : PrintOptions) :
    Except Failure (Value × List Value) :=
  if options.renamed then .error .argumentCount
  else
    match arguments, options.text with
    | [], none => .ok (.text "", [])
    | [], some text => .ok (text, [])
    | text :: rest, none => .ok (text, rest)
    | _ :: _, some _ => .error .argumentCount

/-- The values to print, a text first, and whether its style is known. Without a name the text is
printed as it is. -/
def line? (r : Registry) (place : Nat) (name : Value) (arguments : List Value)
    (options : PrintOptions) : Except Failure (Option (List Value × Bool)) := do
  let c ← r.collection place
  let (text, rest) ← textToPrint arguments options
  match name with
  | .nothing => return some (text :: rest, true)
  | name => r.namedLine? c name text rest options

def print (r : Registry) (place : Nat) (name : Value) (arguments : List Value)
    (options : PrintOptions) : Reply :=
  match r.line? place name arguments options with
  | .error cause => { result := .error cause }
  | .ok none => {}
  | .ok (some (values, true)) => printValues options values
  | .ok (some (values, false)) => (printValues options values).warnOf name

def newCollection (r : Registry) (arguments : List Value) : Registry × Reply :=
  match arguments with
  | [] | [_] =>
    let c : Collection := { display := arguments.headD defaultDisplay }
    ({ r with collections := r.collections.push c }, { result := .ok (.int r.collections.size) })
  | _ => (r, { result := .error .argumentCount })

def newStyle (r : Registry) (decoration : Decoration) (parent : Option Nat) : Registry × Reply :=
  match parent.elim (.ok ()) r.checkStyle with
  | .ok () =>
    ({ r with forest := r.forest.push ⟨decoration, parent⟩ },
      { result := .ok (.int r.forest.size) })
  | .error cause => (r, { result := .error cause })

def setDisplay (r : Registry) (place : Nat) (level : Value) : Registry × Reply :=
  match r.collection place with
  | .ok c => (r.setCollection place { c with display := level }, {})
  | .error cause => (r, { result := .error cause })

def perform (r : Registry) : Operation → Registry × Reply
  | .newCollection arguments => r.newCollection arguments
  | .newStyle decoration parent => r.newStyle decoration parent
  | .applyStyle style text => (r, { result := r.forest.apply style text })
  | .styleLevel style => (r, { result := (r.forest.level style).map (.int ·) })
  | .add place name style options => r.add place name style options
  | .apply place name text => (r, { result := r.apply place name text })
  | .print place name arguments options => (r, r.print place name arguments options)
  | .setDisplay place level => r.setDisplay place level
  | .getDisplay place => (r, { result := (r.collection place).map (·.display) })

end Registry
end RootFinding.Style
