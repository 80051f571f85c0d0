import TraitMarkup.Decl.Fragment
import TraitMarkup.Diagnostic

/-
  Failures: why a text or a token stream is not accepted.

  Key definitions include:
    * `Failure.Kind`
    * `Failure`
    * `Failure.caller?`, `Failure.origin?`
    * `Failure.notes`
    * `Failure.toDiagnostic`
-/

namespace TraitMarkup

namespace Failure

------------------------------------------------------------
-- Kinds
------------------------------------------------------------

/- The kinds of failure, with what is particular to each. -/
inductive Kind where
  /- A failure of no particular kind. -/
  | general
  /- A tag or token out of place, or an early end of input. -/
  | structural
  /- A part given twice, with the value it had first. -/
  | duplication (prior : Option Fragment)
  /- Parts absent when their section closed. -/
  | omission (missing : List String)
  /- A leaf that does not hold what it should. -/
  | malformedLeaf
deriving DecidableEq, Repr

namespace Kind

/- The name of a kind. -/
def name : Kind → String
  | general => "error"
  | structural => "structural"
  | duplication _ => "duplication"
  | omission _ => "omission"
  | malformedLeaf => "malformed-leaf"

/- The code under which a kind is reported. -/
def code : Kind → String
  | general => "TDL-ERROR"
  | structural => "TDL-STRUCTURAL"
  | duplication _ => "TDL-DUPLICATION"
  | omission _ => "TDL-OMISSION"
  | malformedLeaf => "TDL-MALFORMED-LEAF"

end Kind

end Failure

------------------------------------------------------------
-- Failures
------------------------------------------------------------

/-
  A failure: its kind and wording, the rule it broke, the token
  it happened at, its place, and the productions that were open
  around it, innermost first.
-/
structure Failure where
  kind : Failure.Kind
  message : String
  rule : String
  token : Option Token := none
  span : Span := {}
  callers : List String := []
deriving DecidableEq, Repr

namespace Failure

/- The place of a failure that has no place of its own. -/
def spanOf : Option Token → Span
  | none => .unknown
  | some token => token.span

/- The innermost open production. -/
def caller?
    (failure : Failure) :
    Option String :=
  failure.callers.head?

/- The outermost open production. -/
def origin?
    (failure : Failure) :
    Option String :=
  failure.callers.getLast?

/- One note for each open production, innermost first. -/
def notes
    (failure : Failure) :
    List String :=
  failure.callers.map
    (fun id => "while parsing `<" ++ id ++ ">`")

/- The failure as a diagnostic for `file`. -/
def toDiagnostic
    (failure : Failure)
    (file : Option String) :
    Diagnostic where
  message := failure.message
  code := some failure.kind.code
  phase := some "parser"
  span := failure.span.withFile file
  notes := failure.notes

end Failure

end TraitMarkup
