import TraitMarkup.Machine.Step
import TraitMarkup.Token.Lexeme

/-
  Reading a whole trait.

  A trait is a single `<trait>` section with nothing before or
  after it.

  Key definitions include:
    * `StrayCharacter.failure`
    * `readTokens`
    * `TraitDecl.ofTokens`
    * `TraitDecl.ofText`
    * `TraitDecl.ofSource`
-/

namespace TraitMarkup

------------------------------------------------------------
-- Tokens Of A Source
------------------------------------------------------------

namespace StrayCharacter

/- The failure that a stray character leads to. -/
def failure
    (stray : StrayCharacter)
    (file : Option String) :
    Failure where
  kind := .structural
  message :=
    "error lexing input: unexpected character `"
      ++ stray.char.toString ++ "`"
  rule := "lexer"
  span := .startingAt file stray.place

end StrayCharacter

/- The tokens of a source text. -/
def readTokens
    (file : Option String)
    (text : String) :
    Except Fault (List Token) :=
  match Token.ofText file text with
  | .error stray => .error (.rejected (stray.failure file))
  | .ok tokens => .ok tokens

------------------------------------------------------------
-- Traits
------------------------------------------------------------

namespace TraitDecl

/- A failure outside the trait section, at a token. -/
def outside
    (message : String)
    (token : Option Token) :
    Fault :=
  .rejected
    { kind := .structural
      message := message
      rule := Section.trait.rule
      token := token
      span := Failure.spanOf token }

/- The declaration that a run ended with, and nothing else. -/
def ofResult : Fragment × Cursor → Except Fault TraitDecl
  | (fragment, cursor) =>
      match cursor.rest, fragment with
      | [], .trait decl => .ok decl
      | [], _ => .error (.misfit (.ofSection .trait))
      | token :: rest, _ =>
          .error (outside
            ("extraneous tokens after end of trait definition: `"
              ++ Code.render (token :: rest) ++ "`")
            (some token))

/- The trait that a token stream declares. -/
def ofTokens : List Token → Except Fault TraitDecl
  | [] =>
      .error (outside
        "expected `<trait>`, found end of input" none)
  | token :: rest =>
      if token.opens Section.trait.closeTag.text then
        match (Step.enter Section.trait.id ⟨[token], rest⟩
            []).run with
        | .error fault => .error fault
        | .ok result => ofResult result
      else
        .error (outside
          ("expected `<trait>`, found unexpected token `"
            ++ token.text ++ "`")
          (some token))

/- The trait that a text declares. -/
def ofText
    (file : Option String)
    (text : String) :
    Except Fault TraitDecl :=
  match readTokens file text with
  | .error fault => .error fault
  | .ok tokens => ofTokens tokens

end TraitDecl

------------------------------------------------------------
-- Diagnostics Of A Source
------------------------------------------------------------

namespace Fault

/-
  The diagnostic that a fault in `file` leads to. Only a rejected
  source is reported in earnest. The other faults would be the
  machine's own, and no source leads to one of them: what is not
  a trait is rejected, by `TraitDecl.refused_of_ofTokens`. They
  get a plain diagnostic so that every fault has one.
-/
def toDiagnostic
    (file : Option String) :
    Fault → Diagnostic
  | rejected failure => failure.toDiagnostic file
  | fault =>
      { message := fault.message
        phase := some "parser"
        span := { file := file } }

end Fault

namespace TraitDecl

/- The trait that a source declares, or a diagnostic. -/
def ofSource
    (file : Option String)
    (text : String) :
    Except Diagnostic TraitDecl :=
  match ofText file text with
  | .error fault => .error (fault.toDiagnostic file)
  | .ok decl => .ok decl

end TraitDecl

end TraitMarkup
