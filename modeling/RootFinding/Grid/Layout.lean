import RootFinding.Grid.Basic

/-!
# Layout of nested lists of words

Words stand between brackets, one pair for each axis. Rows of the last axis break before a word
that would pass the line width; the other axes begin a new line for each of their rows. Beyond a
thousand words only the first and last three along each longer axis are shown.
-/
namespace RootFinding.Layout

def lineWidth : Nat := 75

/-- How words are set apart and where lines begin and end. -/
structure Frame where
  separator : String
  indent : Nat := 1
  width : Nat := lineWidth

/-- The separator without trailing blanks, as it stands at the end of a line. -/
def Frame.lineEnd (frame : Frame) : String := frame.separator.trimAsciiEnd.toString

def blanks (n : Nat) : String := String.ofList (List.replicate n ' ')

def lastLineLength (s : String) : Nat := (s.toList.reverse.takeWhile (· != '\n')).length

def threshold : Nat := 1000

def edge : Nat := 3

/-- The items of an axis that are shown: `gap` stands for those left out. -/
def shorten (shortened : Bool) (gap : α) (items : List α) : List α :=
  if shortened && 2 * edge < items.length then
    items.take edge ++ gap :: items.drop (items.length - edge)
  else items

def shownEntries (shortened : Bool) : List Nat → List α → List α
  | [], xs => xs
  | n :: shape, xs =>
    let rows := Grid.pieces (extent shape) n xs
    let rows :=
      if shortened && 2 * edge < rows.length then
        rows.take edge ++ rows.drop (rows.length - edge)
      else rows
    (rows.map (shownEntries shortened shape)).flatten

def shown (a : Grid α) : List α := shownEntries (threshold < a.size) a.shape a.entries

/-- Append the words of a row to `line`. A word that would pass `width` begins a new line, unless
it is the first of its line. -/
def wrap (separator : String) (indent width : Nat) : (line : String) → List String → String
  | line, [] => line
  | line, [word] =>
    if width < line.length + word.length && indent < line.length then
      line.trimAsciiEnd.toString ++ "\n" ++ blanks indent ++ word
    else line ++ word
  | line, word :: rest =>
    if width < line.length + word.length && indent < line.length then
      line.trimAsciiEnd.toString ++ "\n" ++
        wrap separator indent width (blanks indent ++ word ++ separator) rest
    else wrap separator indent width (line ++ word ++ separator) rest

def render (frame : Frame) (shortened : Bool) :
    (shape : List Nat) → (indent width : Nat) → List String → String
  | [], _, _, words => "".intercalate words
  | [_], indent, width, words =>
    let row := wrap frame.separator indent (width - 1) (blanks indent)
      (shorten shortened "..." words)
    "[" ++ (row.drop indent).toString ++ "]"
  | n :: m :: shape, indent, width, words =>
    let rows := (Grid.pieces (extent (m :: shape)) n words).map
      (render frame shortened (m :: shape) (indent + 1) (width - 1))
    let lineBreak := frame.lineEnd ++ String.ofList (List.replicate (shape.length + 1) '\n')
    "[" ++ (lineBreak ++ blanks indent).intercalate (shorten shortened "..." rows) ++ "]"

/-- A grid of words between brackets; a grid without words is an empty pair. -/
def text (frame : Frame) (words : Grid String) : String :=
  if words.size = 0 then "[]"
  else render frame (threshold < words.size) words.shape frame.indent frame.width words.entries

end RootFinding.Layout
