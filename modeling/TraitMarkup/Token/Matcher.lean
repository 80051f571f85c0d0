import TraitMarkup.Token.Basic

/-
  Matchers: how much of a text belongs to one lexeme.

  A matcher answers with the number of characters it takes
  from the front of a text, or with nothing. None of the
  matchers below ever needs to give characters back, so each
  is read from left to right.

  Key definitions include:
    * `Matcher`
    * `Matcher.andThen`
    * `Matcher.orElse`
    * `Matcher.openTag`, `Matcher.closeTag`, `Matcher.emptyTag`
    * `Matcher.charLiteral`, `Matcher.stringLiteral`
    * `Matcher.lifetime`, `Matcher.number`, `Matcher.ident`
    * `Matcher.punct`
    * `Matcher.blockComment`, `Matcher.lineComment`
    * `Matcher.blanks`
-/

namespace TraitMarkup

------------------------------------------------------------
-- Matchers And Their Composition
------------------------------------------------------------

/- The number of characters taken, if the text fits. -/
abbrev Matcher := List Char → Option Nat

namespace Matcher

/- One character of a class. -/
def one
    (belongs : Char → Bool) :
    Matcher
  | [] => none
  | c :: _ => if belongs c then some 1 else none

/- As many characters of a class as there are. -/
def run
    (belongs : Char → Bool) :
    Matcher :=
  fun text => some (text.takeWhile belongs).length

/- A fixed text. -/
def literal
    (word : String) :
    Matcher :=
  fun text =>
    if word.toList.isPrefixOf text then
      some word.length
    else
      none

/- The first matcher, then the second on what is left. -/
def andThen
    (first second : Matcher) :
    Matcher :=
  fun text =>
    match first text with
    | none => none
    | some n =>
        match second (text.drop n) with
        | none => none
        | some m => some (n + m)

/- The first matcher, or else the second. -/
def orElse
    (first second : Matcher) :
    Matcher :=
  fun text =>
    match first text with
    | some n => some n
    | none => second text

/- The matcher, or else nothing at all. -/
def optional
    (matcher : Matcher) :
    Matcher :=
  matcher.orElse (fun _ => some 0)

/- The first of several matchers that fits. -/
def firstOf : List Matcher → Matcher
  | [] => fun _ => none
  | matcher :: rest => matcher.orElse (firstOf rest)

/- One or more characters of a class. -/
def runOne
    (belongs : Char → Bool) :
    Matcher :=
  (one belongs).andThen (run belongs)

end Matcher

------------------------------------------------------------
-- Character Classes
------------------------------------------------------------

/- A character that may start a word. -/
def isWordStart
    (c : Char) :
    Bool :=
  c.isAlpha || c == '_'

/- A character that may continue a word. -/
def isWordPart
    (c : Char) :
    Bool :=
  c.isAlphanum || c == '_'

/- A digit or the mark that groups digits. -/
def isDigitPart
    (c : Char) :
    Bool :=
  c.isDigit || c == '_'

/- A hexadecimal digit. -/
def isHexDigit
    (c : Char) :
    Bool :=
  c.isDigit || ('a' ≤ c && c ≤ 'f') || ('A' ≤ c && c ≤ 'F')

/- A blank: space, tab, return, newline or form feed. -/
def isBlank
    (c : Char) :
    Bool :=
  c == ' ' || c == '\t' || c == '\r' || c == '\n' ||
    c == '\x0c'

------------------------------------------------------------
-- Words And Numbers
------------------------------------------------------------

namespace Matcher

/- A word: a letter or `_`, then letters, digits and `_`. -/
def word : Matcher :=
  (one isWordStart).andThen (run isWordPart)

/- A name, possibly written raw with a leading `r#`. -/
def ident : Matcher :=
  ((literal "r#").andThen word).orElse word

/- A quote and a word. -/
def lifetime : Matcher :=
  (literal "'").andThen word

/- A digit and further digits, possibly grouped. -/
def digits : Matcher :=
  (one Char.isDigit).andThen (run isDigitPart)

/- A point and the digits after it. -/
def fraction : Matcher :=
  (literal ".").andThen digits

/- An exponent with an optional sign. -/
def exponent : Matcher :=
  (one (fun c => c == 'e' || c == 'E')).andThen
    ((optional (one (fun c => c == '+' || c == '-'))).andThen
      (runOne isDigitPart))

/- A number with whatever suffix is glued to it. -/
def number : Matcher :=
  digits.andThen
    ((optional fraction).andThen
      ((optional exponent).andThen (run isWordPart)))

end Matcher

------------------------------------------------------------
-- Tags
------------------------------------------------------------

namespace Matcher

/-
  The number of characters that continue a tag name. A hyphen
  belongs to the name only with a word character after it.
-/
def tagNameRest : List Char → Nat
  | [] => 0
  | [c] => if isWordPart c then 1 else 0
  | c :: d :: rest =>
      if isWordPart c then
        1 + tagNameRest (d :: rest)
      else if c == '-' && isWordPart d then
        2 + tagNameRest rest
      else
        0

/- A tag name: words joined by hyphens. -/
def tagName : Matcher :=
  (one isWordStart).andThen
    (fun text => some (tagNameRest text))

/- A tag name between two fixed texts. -/
def tag
    (opening closing : String) :
    Matcher :=
  (literal opening).andThen
    (tagName.andThen (literal closing))

/- An opening tag such as `<name>`. -/
def openTag : Matcher := tag "<" ">"

/- A closing tag such as `</name>`. -/
def closeTag : Matcher := tag "</" ">"

/- An empty tag such as `<name/>`. -/
def emptyTag : Matcher := tag "<" "/>"

end Matcher

------------------------------------------------------------
-- Literals
------------------------------------------------------------

namespace Matcher

/- The mark of a byte literal, which may be absent. -/
def byteMark : Matcher :=
  optional (literal "b")

/-
  The inside of a string up to and with its closing quote. A
  backslash takes the next character with it, unless that is a
  newline.
-/
def stringRest : List Char → Option Nat
  | [] => none
  | [c] => if c == '"' then some 1 else none
  | c :: d :: rest =>
      if c == '"' then
        some 1
      else if c == '\\' then
        if d == '\n' then
          none
        else
          (stringRest rest).map (· + 2)
      else
        (stringRest (d :: rest)).map (· + 1)

/- A raw string: anything but a quote between quotes. -/
def rawString : Matcher :=
  byteMark.andThen
    ((literal "r\"").andThen
      ((run (· != '"')).andThen (literal "\"")))

/- A string with escapes. -/
def escapedString : Matcher :=
  byteMark.andThen ((literal "\"").andThen stringRest)

/- A string of either form. -/
def stringLiteral : Matcher :=
  rawString.orElse escapedString

/- An escaped code point such as `\u{41}`. -/
def codePoint : Matcher :=
  (literal "\\u\x7b").andThen
    ((runOne isHexDigit).andThen (literal "\x7d"))

/- A backslash and any one character but a newline. -/
def escape : Matcher :=
  (literal "\\").andThen (one (· != '\n'))

/- Any one character that needs no escape. -/
def plainChar : Matcher :=
  one (fun c => c != '\'' && c != '\\' && c != '\n')

/- A character between single quotes. -/
def charLiteral : Matcher :=
  byteMark.andThen
    ((literal "'").andThen
      (firstOf
        [codePoint.andThen (literal "'"),
          escape.andThen (literal "'"),
          plainChar.andThen (literal "'")]))

end Matcher

------------------------------------------------------------
-- Punctuation
------------------------------------------------------------

/- The marks of more than one character, in order of trial. -/
def longMarks : List String :=
  ["..=", "...", "<<=", ">>=", "::", "->", "=>", "==", "!=",
    "<=", ">=", "&&", "||", "..", "<<", ">>", "+=", "-=", "*=",
    "/=", "%=", "^=", "&=", "|="]

/- The marks of a single character. -/
def shortMarks : List Char :=
  "-+*/%^!&|=<>@.,;:#$?~()[]\x7b\x7d".toList

namespace Matcher

/- A punctuation mark. -/
def punct : Matcher :=
  (firstOf (longMarks.map literal)).orElse
    (one (fun c => shortMarks.contains c))

end Matcher

------------------------------------------------------------
-- Gaps
------------------------------------------------------------

namespace Matcher

/- The rest of a block comment, up to and with its end. -/
def commentRest : List Char → Option Nat
  | [] => none
  | [_] => none
  | c :: d :: rest =>
      if c == '*' && d == '/' then
        some 2
      else
        (commentRest (d :: rest)).map (· + 1)

/- A block comment that is closed. -/
def blockComment : Matcher :=
  (literal "/*").andThen commentRest

/- A comment up to the end of its line. -/
def lineComment : Matcher :=
  (literal "//").andThen (run (· != '\n'))

/- One or more blanks. -/
def blanks : Matcher :=
  runOne isBlank

end Matcher

end TraitMarkup
