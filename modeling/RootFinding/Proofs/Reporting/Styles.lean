import RootFinding.Proofs.Reporting.Courses
import RootFinding.Proofs.Style.Grounded

/-!
# Notes in their print styles

A solver has a collection of two print styles, one at the top and one below it. A line of progress
is what this collection prints of a note, and a note is shown where the collection prints anything.
-/
namespace RootFinding
open Style

namespace Progress
variable {Detail : Type}

def collection (display : Value) : Collection where
  display := display
  named := [(.text "solver", 0), (.text "iteration", 1)]

/-- The print styles of a solver with its display level: one at the top and one that hangs below. -/
def styles (display : Value) : Registry where
  forest := #[⟨.tab, none⟩, ⟨.dots, some 0⟩]
  collections := #[collection display]

/-- The styles are added once, to a collection with the display level. -/
theorem run_styles (display : Value) : ({} : Registry).run [.newCollection [display],
    .newStyle .tab none, .add 0 (.text "solver") 0 {}, .newStyle .dots none,
    .add 0 (.text "iteration") 1 { parent := .text "solver" }] = styles display := rfl

theorem setDisplay_styles (display level : Value) :
    ((styles display).setDisplay 0 level).1 = styles level := rfl

def place : Note Detail → Nat
  | .iteration _ _ => 1
  | _ => 0

def name : Note Detail → Value
  | .iteration _ _ => .text "iteration"
  | _ => .text "solver"

theorem level_place (display : Value) (note : Note Detail) :
    (styles display).forest.level (place note) = .ok note.level := by
  cases note <;> rfl

theorem apply_place (display : Value) (note : Note Detail) (s : String) :
    (styles display).forest.apply (place note) (.text s) = .ok (.text (lead note.level ++ s)) := by
  have htop : (styles display).forest.apply 0 (.text s) = .ok (.text (lead 1 ++ s)) :=
    congrArg (fun s => Except.ok (Value.text s)) String.empty_append.symm
  cases note with
  | iteration number detail => rfl
  | _ => exact htop

theorem line?_styles (display : Value) (note : Note Detail) (s : String) :
    (styles display).line? 0 (name note) [.text s] {} =
      (shows display note).map fun shown =>
        if shown then some ([.text (lead note.level ++ s)], true) else none := by
  have hnamed : (styles display).line? 0 (name note) [.text s] {} =
      (styles display).namedLine? (collection display) (name note) (.text s) [] {} := by
    cases note <;> rfl
  have hfind : (collection display).find? (name note) = .ok (some (place note)) := by
    cases note <;> rfl
  have hdisplay : Registry.displayFor (collection display) {} = display := rfl
  rw [hnamed, Registry.namedLine?, hfind]
  simp only [bind, Except.bind, hdisplay, Registry.styled?, level_place, apply_place, shows]
  cases Value.isAtMost (.int note.level) display with
  | error cause => rfl
  | ok shown => cases shown <;> rfl

/-- A note is printed in its style as it is told, and where it is shown. -/
theorem print_styles (display : Value) (method : String) (detail : Detail → String)
    (note : Note Detail) :
    (styles display).print 0 (name note) [.text (body method detail note)] {} =
      match shows display note with
      | .ok true => { printed := line method detail note }
      | .ok false => {}
      | .error cause => { result := .error cause } := by
  rw [Registry.print, line?_styles]
  cases shows display note with
  | error cause => rfl
  | ok shown =>
    cases shown with
    | false => rfl
    | true =>
      have hline : printValues {} [.text (lead note.level ++ body method detail note)] =
          { printed := line method detail note } := by
        rw [printValues]
        rfl
      exact hline

/-- What is told at an integer level is what the styles print of all notes in turn. -/
theorem text_upTo (method : String) (level : Int) (notes : List (Note String)) :
    text method (Note.upTo level notes) = String.join (notes.map fun note =>
      ((styles (.int level)).print 0 (name note) [.text (body method id note)] {}).printed) := by
  have hprinted (note : Note String) :
      ((styles (.int level)).print 0 (name note) [.text (body method id note)] {}).printed =
        if (note.level : Int) ≤ level then line method id note else "" := by
    rw [print_styles, shows_int]
    by_cases hlevel : (note.level : Int) ≤ level
    · simp [hlevel]
    · simp [hlevel]
  simp only [hprinted]
  induction notes with
  | nil => rfl
  | cons note notes ih =>
    by_cases hlevel : (note.level : Int) ≤ level
    · simpa [text, Note.upTo, hlevel] using ih
    · simpa [text, Note.upTo, hlevel] using ih

end Progress
end RootFinding
