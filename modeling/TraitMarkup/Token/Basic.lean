import TraitMarkup.Source.Span

/-
  Tokens of trait markup, and runs of tokens kept as code.

  A token has a kind and a text. Whether a gap stood before it
  and where it was found are presentation only: `Token.bare`
  drops both, and two tokens are the same when their bare
  forms are equal.

  Key definitions include:
    * `Kind`
    * `Token`
    * `Token.bare`
    * `Token.Same`
    * `Token.tagName?`
    * `Token.opens`
    * `Token.closes`
    * `Token.marks`
    * `Code`
    * `Code.render`
-/

namespace TraitMarkup

------------------------------------------------------------
-- Kinds
------------------------------------------------------------

/- What a token is. -/
inductive Kind where
  | ident
  | lifetime
  | string
  | char
  | number
  | punct
  | openTag
  | closeTag
  | emptyTag
deriving DecidableEq, Repr, Inhabited

namespace Kind

/- The written name of a kind. -/
def name : Kind → String
  | ident => "ident"
  | lifetime => "lifetime"
  | string => "string"
  | char => "char"
  | number => "number"
  | punct => "punct"
  | openTag => "open_tag"
  | closeTag => "close_tag"
  | emptyTag => "empty_tag"

/- Every kind. -/
def all : List Kind :=
  [ident, lifetime, string, char, number, punct,
    openTag, closeTag, emptyTag]

/- The kind of a written name. -/
def ofName?
    (name : String) :
    Option Kind :=
  all.find? (fun kind => kind.name = name)

end Kind

------------------------------------------------------------
-- Tokens
------------------------------------------------------------

/- A token, with the gap before it and the place it has. -/
structure Token where
  kind : Kind
  text : String
  spaced : Bool := true
  span : Span := {}
deriving DecidableEq, Repr, Inhabited

namespace Token

/- The token without its gap and its place. -/
def bare
    (token : Token) :
    Token where
  kind := token.kind
  text := token.text

/- Two tokens agree in kind and text. -/
def Same
    (left right : Token) : Prop :=
  left.bare = right.bare

instance
    (left right : Token) :
    Decidable (Same left right) := by
  unfold Same
  infer_instance

/- Sameness is agreement in kind and in text. -/
theorem same_iff
    {left right : Token} :
    Same left right ↔
      left.kind = right.kind ∧ left.text = right.text := by
  simp [Same, bare]

/- An opening tag made by hand. -/
def ofOpenTag
    (name : String) :
    Token where
  kind := .openTag
  text := "<" ++ name ++ ">"

/- A closing tag made by hand. -/
def ofCloseTag
    (name : String) :
    Token where
  kind := .closeTag
  text := "</" ++ name ++ ">"

/-
  The name a tag token carries between its brackets. The name
  is cut out by position, so a token whose text does not fit
  its kind still has one.
-/
def tagName?
    (token : Token) :
    Option String :=
  let text := token.text.toList
  match token.kind with
  | .openTag => some (String.ofList (text.drop 1).dropLast)
  | .closeTag => some (String.ofList (text.drop 2).dropLast)
  | .emptyTag =>
      some (String.ofList (text.drop 1).dropLast.dropLast)
  | _ => none

/- The token is a tag of any kind. -/
def isTag
    (token : Token) :
    Bool :=
  token.tagName?.isSome

/- The token is the opening tag of `name`. -/
def opens
    (token : Token)
    (name : String) :
    Bool :=
  token.kind = .openTag && token.tagName? = some name

/- The token is the closing tag of `name`. -/
def closes
    (token : Token)
    (name : String) :
    Bool :=
  token.kind = .closeTag && token.tagName? = some name

/- The token is the empty tag of `name`. -/
def marks
    (token : Token)
    (name : String) :
    Bool :=
  token.kind = .emptyTag && token.tagName? = some name

/- The text of the token with one blank for the gap before. -/
def spelled
    (token : Token) :
    String :=
  if token.spaced then " " ++ token.text else token.text

end Token

------------------------------------------------------------
-- Code
------------------------------------------------------------

/- A run of tokens that is kept as it was written. -/
abbrev Code := List Token

namespace Code

/-
  The text of a run: a single blank where a gap stood, nothing
  between tokens that touched, and no blank in front.
-/
def render : Code → String
  | [] => ""
  | first :: rest =>
      String.join (first.text :: rest.map Token.spelled)

/- The run without gaps and places. -/
def bare
    (code : Code) :
    Code :=
  code.map Token.bare

end Code

end TraitMarkup
