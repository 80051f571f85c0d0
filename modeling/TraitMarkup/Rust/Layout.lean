/-
  The layout of generated text.

  Generated text is a list of lines, each with a depth. The
  layout says what one level of depth looks like and whether
  the text ends in a newline.

  Key definitions include:
    * `Line`
    * `Line.deeper`
    * `Line.render`
    * `Layout`
    * `Layout.ofBlanks`, `Layout.ofWidth`
    * `Layout.render`
-/

namespace TraitMarkup

------------------------------------------------------------
-- Lines
------------------------------------------------------------

/- A line of text at a depth. -/
structure Line where
  depth : Nat
  text : String
deriving DecidableEq, Repr

namespace Line

/- The line one level deeper. -/
def deeper
    (line : Line) :
    Line :=
  { line with depth := line.depth + 1 }

/- The line after a margin, with `unit` for each level. -/
def render
    (margin unit : String)
    (line : Line) :
    String :=
  margin ++ String.join (List.replicate line.depth unit)
    ++ line.text

end Line

------------------------------------------------------------
-- Layouts
------------------------------------------------------------

/- How lines become a text. -/
structure Layout where
  indent : String := "    "
  trailingNewline : Bool := true
deriving DecidableEq, Repr

/- A width that no layout has. -/
structure NegativeWidth where
  width : Int
deriving DecidableEq, Repr

namespace NegativeWidth

/- The wording of the complaint. -/
def message
    (fault : NegativeWidth) :
    String :=
  "indent width must be non-negative, got "
    ++ toString fault.width

end NegativeWidth

namespace Layout

/- Four blanks a level and a newline at the end. -/
def standard : Layout := {}

/- The layout with `width` blanks, or a tab, for a level. -/
def ofBlanks
    (width : Nat)
    (tabs trailingNewline : Bool) :
    Layout where
  indent :=
    if tabs then
      "\t"
    else
      String.ofList (List.replicate width ' ')
  trailingNewline := trailingNewline

/- The layout of a width that may turn out to be negative. -/
def ofWidth
    (width : Int)
    (tabs trailingNewline : Bool) :
    Except NegativeWidth Layout :=
  if width < 0 then
    .error ⟨width⟩
  else
    .ok (ofBlanks width.toNat tabs trailingNewline)

/- The text of lines under a layout. -/
def render
    (layout : Layout)
    (lines : List Line) :
    String :=
  let text :=
    String.intercalate "\n"
      (lines.map (Line.render "" layout.indent))
  if layout.trailingNewline then text ++ "\n" else text

end Layout

end TraitMarkup
