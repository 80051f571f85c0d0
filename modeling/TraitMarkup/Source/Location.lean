import TraitMarkup.Source.Span

/-
  Locations: a line and a column, both counted from one.

  A location is moved by the characters that are read. Only a
  newline ends a line, and every other character takes one
  column.

  Key definitions include:
    * `Location`
    * `Location.start`
    * `Location.next`
    * `Location.after`
    * `Span.between`
-/

namespace TraitMarkup

------------------------------------------------------------
-- Locations
------------------------------------------------------------

/- A place between two characters of a text. -/
structure Location where
  line : Nat
  column : Nat
deriving DecidableEq, Repr

namespace Location

/- The place before the first character. -/
def start : Location := ⟨1, 1⟩

/- The place after one more character. -/
def next
    (place : Location)
    (c : Char) :
    Location :=
  if c = '\n' then
    ⟨place.line + 1, 1⟩
  else
    ⟨place.line, place.column + 1⟩

/- The place after the characters of `text`. -/
def after
    (place : Location)
    (text : List Char) :
    Location :=
  text.foldl next place

/- Reading two texts in a row is reading their concatenation. -/
theorem after_append
    (place : Location)
    (first second : List Char) :
    place.after (first ++ second) =
      (place.after first).after second := by
  simp [after, List.foldl_append]

end Location

------------------------------------------------------------
-- Spans From Locations
------------------------------------------------------------

namespace Span

/- The span from one place to another. -/
def between
    (file : Option String)
    (first last : Location) :
    Span where
  file := file
  line := some first.line
  column := some first.column
  endLine := some last.line
  endColumn := some last.column

/- The span that starts at a place and has no known end. -/
def startingAt
    (file : Option String)
    (place : Location) :
    Span where
  file := file
  line := some place.line
  column := some place.column

end Span

end TraitMarkup
