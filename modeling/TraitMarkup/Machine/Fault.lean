import TraitMarkup.Failure
import TraitMarkup.Grammar.Finish
import TraitMarkup.Grammar.Leaf
import TraitMarkup.Grammar.Omission

/-
  Why a production stops without a result.

  A cause says what is wrong with the tokens. Together with the
  production that met it and the productions open around that
  one, it makes a failure. A run that was handed frames of its
  own may also stop because a frame makes no sense.

  Key definitions include:
    * `Cause`
    * `Cause.text`
    * `Production.failure`
    * `Fault`
-/

namespace TraitMarkup

------------------------------------------------------------
-- Causes
------------------------------------------------------------

/- What is wrong with the tokens of a production. -/
inductive Cause where
  /- The tokens end before the closing tag. -/
  | endOfInput (last : Option Token)
  /- The token has no place here. -/
  | unexpected (found : Token)
  /- The tag gives a part that already has a value. -/
  | redefined
      (label : String)
      (prior : Option Fragment)
      (found : Token)
  /- The section is closed before it is complete. -/
  | incomplete
      (missing : List Tag)
      (subject : Option Token)
      (close : Token)
  /- The code of a leaf has the wrong shape. -/
  | malformed (complaint : Malformed)
deriving DecidableEq, Repr

namespace Cause

/- The token at which a cause is found. -/
def token? : Cause → Option Token
  | endOfInput _ => none
  | unexpected found => some found
  | redefined _ _ found => some found
  | incomplete _ _ close => some close
  | malformed complaint => some complaint.token

/- The place of a cause. An early end is where it was read. -/
def span : Cause → Span
  | endOfInput last => Failure.spanOf last
  | cause => Failure.spanOf cause.token?

/- The kind of failure that a cause leads to. -/
def kind : Cause → Failure.Kind
  | endOfInput _ => .structural
  | unexpected _ => .structural
  | redefined _ prior _ => .duplication prior
  | incomplete missing _ _ => .omission (missing.map Tag.text)
  | malformed _ => .malformedLeaf

end Cause

------------------------------------------------------------
-- Wording
------------------------------------------------------------

/- Whether a tag is misplaced or has no meaning anywhere. -/
def tagStanding
    (token : Token) :
    String :=
  match token.tagName?.bind Tag.ofText? with
  | none => "unknown"
  | some _ => "unexpected"

/- How a message tells of a token that has no place. -/
def unexpectedText
    (production : Production)
    (found : Token) :
    String :=
  let close := production.closeTag.text
  let shown := "`" ++ found.text ++ "`"
  match found.kind with
  | .openTag =>
      tagStanding found ++ " start tag " ++ shown
        ++ " inside `<" ++ close ++ ">`"
  | .closeTag =>
      tagStanding found ++ " end tag " ++ shown
        ++ ", expected `</" ++ close ++ ">`"
  | .emptyTag =>
      "unexpected tag " ++ shown ++ " inside `<" ++ close
        ++ ">`"
  | _ => "unexpected token " ++ shown

/- How a message tells of a part that is given twice. -/
def redefinedText
    (label : String)
    (prior : Option Fragment)
    (found : Token) :
    String :=
  match prior.bind Fragment.describe? with
  | none => "encountered more than one `" ++ found.text ++ "`"
  | some shown =>
      label ++ " already defined as `" ++ shown
        ++ "`, but encountered another `" ++ found.text ++ "`"

namespace Cause

/- What a message says about a cause. -/
def text
    (production : Production) :
    Cause → String
  | endOfInput _ =>
      "ran out of tokens before `</"
        ++ production.closeTag.text ++ ">`"
  | unexpected found => unexpectedText production found
  | redefined label prior found =>
      redefinedText label prior found
  | incomplete missing subject _ =>
      match production with
      | .ofSection group =>
          group.omissionText missing subject
      | .ofLeaf leaf => leaf.rule
  | malformed complaint =>
      match production with
      | .ofLeaf leaf => complaint.text leaf
      | .ofSection group => group.rule

end Cause

/- The end of a message: the production that asked for it. -/
def callerText : List String → String
  | [] => ""
  | caller :: _ => ". caller: `" ++ caller ++ "`"

namespace Production

/- The failure of a production inside its callers. -/
def failure
    (production : Production)
    (callers : List String)
    (cause : Cause) :
    Failure where
  kind := cause.kind
  message :=
    "error parsing " ++ production.rule ++ ": "
      ++ cause.text production ++ callerText callers
  rule := production.rule
  token := cause.token?
  span := cause.span
  callers := callers

/- What is said of a second production under the same id. -/
def takenText
    (production : Production) :
    String :=
  "production `" ++ production.id ++ "` registered twice"

end Production

------------------------------------------------------------
-- Faults
------------------------------------------------------------

/- Why a run stops without a result. -/
inductive Fault where
  /- The tokens are at fault. -/
  | rejected (failure : Failure)
  /- No production has this id. -/
  | unknownProduction (id : String)
  /- The section to resume has no child of this tag. -/
  | unknownChild (tag : String)
  /- A leaf cannot be resumed. -/
  | notResumable (leaf : Leaf)
  /- A section took apart a value that has no such part. -/
  | lacking (lack : Lack)
  /- A production gave a fragment of a foreign shape. -/
  | misfit (production : Production)
deriving DecidableEq, Repr

namespace Fault

/- The wording of a fault. -/
def message : Fault → String
  | rejected failure => failure.message
  | unknownProduction id =>
      "unknown production `" ++ id ++ "`"
  | unknownChild tag => tag
  | notResumable leaf =>
      "production `" ++ leaf.id ++ "` has no resumption steps"
  | lacking lack => lack.message
  | misfit production =>
      "production `" ++ production.id
        ++ "` gave a fragment of another shape"

end Fault

end TraitMarkup
