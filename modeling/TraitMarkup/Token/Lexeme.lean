import TraitMarkup.Source.Location
import TraitMarkup.Token.Matcher

/-
  Lexemes: the pieces a text is cut into.

  A text is cut from the front. At each place the classes of
  lexemes are tried in a fixed order and the first that fits
  is taken, whatever its length. Comments and blanks are gaps;
  every other lexeme is a token.

  Key definitions include:
    * `Lexeme`
    * `Lexeme.classify`
    * `Lexeme.scan`
    * `StrayCharacter`
    * `Token.ofLexemes`
    * `Token.ofText`
-/

namespace TraitMarkup

------------------------------------------------------------
-- Lexemes
------------------------------------------------------------

/- A piece of text from one place to another. -/
structure Lexeme where
  /- The kind of token, or nothing for a gap. -/
  kind : Option Kind
  text : List Char
  first : Location
  last : Location
deriving DecidableEq, Repr

namespace Lexeme

/- The classes of lexemes in the order they are tried. -/
def classes : List (Option Kind × Matcher) :=
  [(some .closeTag, Matcher.closeTag),
    (some .emptyTag, Matcher.emptyTag),
    (some .openTag, Matcher.openTag),
    (some .char, Matcher.charLiteral),
    (some .string, Matcher.stringLiteral),
    (some .lifetime, Matcher.lifetime),
    (some .number, Matcher.number),
    (some .ident, Matcher.ident),
    (none, Matcher.blockComment),
    (none, Matcher.lineComment),
    (none, Matcher.blanks),
    (some .punct, Matcher.punct)]

/- The class and length of the lexeme in front of a text. -/
def classify
    (text : List Char) :
    Option (Option Kind × Nat) :=
  classes.findSome?
    (fun entry => (entry.2 text).map (entry.1, ·))

end Lexeme

------------------------------------------------------------
-- Cutting A Text
------------------------------------------------------------

/- A character at which no lexeme starts. -/
structure StrayCharacter where
  char : Char
  place : Location
deriving DecidableEq, Repr

namespace Lexeme

/-
  Cut a text that starts at `place` into lexemes. A lexeme has
  at least one character, so the rest is always shorter.
-/
def scan
    (place : Location) :
    List Char → Except StrayCharacter (List Lexeme)
  | [] => .ok []
  | c :: rest =>
      match classify (c :: rest) with
      | none => .error ⟨c, place⟩
      | some (kind, size) =>
          let text := c :: rest.take (size - 1)
          let last := place.after text
          match scan last (rest.drop (size - 1)) with
          | .error stray => .error stray
          | .ok more => .ok (⟨kind, text, place, last⟩ :: more)
termination_by text => text.length
decreasing_by
  simp only [List.length_drop, List.length_cons]
  omega

end Lexeme

------------------------------------------------------------
-- Tokens Of A Text
------------------------------------------------------------

namespace Token

/-
  The tokens among the lexemes that follow. A token is spaced
  when a token stands before it and a gap between the two.
-/
def ofLexemes
    (file : Option String)
    (started gap : Bool) :
    List Lexeme → List Token
  | [] => []
  | lexeme :: rest =>
      match lexeme.kind with
      | none => ofLexemes file started true rest
      | some kind =>
          { kind := kind
            text := String.ofList lexeme.text
            spaced := started && gap
            span := .between file lexeme.first lexeme.last } ::
            ofLexemes file true false rest

/- The tokens of a text. -/
def ofText
    (file : Option String)
    (text : String) :
    Except StrayCharacter (List Token) :=
  (Lexeme.scan .start text.toList).map
    (ofLexemes file false false)

end Token

end TraitMarkup
