/-
  Source spans: where in which file a piece of text stands.

  Every part of a span may be unknown. Line and column numbers
  are integers, since a host may place its own tokens anywhere.

  Key definitions include:
    * `Span`
    * `Span.unknown`
    * `Span.Known`
    * `Span.withFile`
    * `Span.orFile`
    * `Span.describe`
-/

namespace TraitMarkup

------------------------------------------------------------
-- Spans
------------------------------------------------------------

/- A span of source text, with the place just after its end. -/
structure Span where
  file : Option String := none
  line : Option Int := none
  column : Option Int := none
  endLine : Option Int := none
  endColumn : Option Int := none
deriving DecidableEq, Repr, Inhabited

/- The empty file name stands for no file name. -/
def namedFile
    (file : Option String) :
    Option String :=
  file.filter (· ≠ "")

namespace Span

/- The span of which nothing is known. -/
def unknown : Span := {}

/- A span is known when its line is. -/
def Known
    (span : Span) : Prop :=
  span.line.isSome

instance
    (span : Span) :
    Decidable span.Known := by
  unfold Known
  infer_instance

/- Put the span into `file`, if there is one. -/
def withFile
    (span : Span)
    (file : Option String) :
    Span :=
  match file with
  | none => span
  | some name => { span with file := some name }

/- Put the span into `file` unless it already names one. -/
def orFile
    (span : Span)
    (file : Option String) :
    Span :=
  match namedFile span.file with
  | none => span.withFile file
  | some _ => span

end Span

------------------------------------------------------------
-- Spelling
------------------------------------------------------------

/- A line or column number, with `?` for an unknown one. -/
def describeNumber : Option Int → String
  | none => "?"
  | some n => toString n

namespace Span

/- The spelling `file:line:column` used by diagnostics. -/
def describe
    (span : Span) :
    String :=
  (namedFile span.file).getD "<input>"
    ++ ":" ++ describeNumber span.line
    ++ ":" ++ describeNumber span.column

end Span

end TraitMarkup
