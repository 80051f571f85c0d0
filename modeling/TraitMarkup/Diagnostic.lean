import TraitMarkup.Source.Span
import TraitMarkup.Text.Json

/-
  Diagnostics: what a user is told about a source.

  Key definitions include:
    * `Diagnostic`
    * `Diagnostic.render`
    * `Diagnostic.toJson`
-/

namespace TraitMarkup

/- A message about a place, with notes. -/
structure Diagnostic where
  message : String
  code : Option String := none
  phase : Option String := none
  severity : String := "error"
  span : Span := {}
  notes : List String := []
deriving DecidableEq, Repr

namespace Diagnostic

/-
  The line `file:line:column: severity: message`. A span that
  names no file at all is put into `defaultFile`.
-/
def render
    (diagnostic : Diagnostic)
    (defaultFile : Option String) :
    String :=
  let span :=
    match diagnostic.span.file with
    | none => diagnostic.span.withFile defaultFile
    | some _ => diagnostic.span
  span.describe ++ ": " ++ diagnostic.severity ++ ": "
    ++ diagnostic.message

/-
  The diagnostic as an object. A missing or empty file name
  gives way to `defaultFile`.
-/
def toJson
    (diagnostic : Diagnostic)
    (defaultFile : Option String) :
    Json :=
  let file :=
    match namedFile diagnostic.span.file with
    | none => defaultFile
    | some name => some name
  .obj
    [("phase", .ofString? diagnostic.phase),
      ("code", .ofString? diagnostic.code),
      ("message", .str diagnostic.message),
      ("severity", .str diagnostic.severity),
      ("file", .ofString? file),
      ("line", .ofInt? diagnostic.span.line),
      ("column", .ofInt? diagnostic.span.column),
      ("notes", .arr (diagnostic.notes.map .str))]

/- The line of a diagnostic followed by one line for each note. -/
def lines
    (diagnostic : Diagnostic) :
    List String :=
  diagnostic.render none ::
    diagnostic.notes.map
      (fun note =>
        diagnostic.span.describe ++ ": note: " ++ note)

end Diagnostic

end TraitMarkup
