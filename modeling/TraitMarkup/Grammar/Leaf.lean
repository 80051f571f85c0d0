import TraitMarkup.Grammar.Production

/-
  What a leaf may hold.

  A leaf takes everything up to the first closing or empty tag.
  Some leaves hold a single token of one kind, one holds a
  visibility, two hold the path of a bound, and the others
  keep their code as it is.

  Key definitions include:
    * `Leaf.Form`
    * `Leaf.form`
    * `Malformed`
    * `Malformed.text`
    * `Leaf.build`
-/

namespace TraitMarkup

------------------------------------------------------------
-- Forms
------------------------------------------------------------

/- The shapes that the code of a leaf may have to meet. -/
inductive Leaf.Form where
  /- Exactly one token of a kind, called by a label. -/
  | single (kind : Kind) (label : String)
  /- `pub`, alone or with a restriction. -/
  | visibility
  /- A path, possibly relaxed by a leading `?`. -/
  | path
  /- Any code, with the complaint if there is none. -/
  | verbatim (empty : String)
  /- Any code at all. -/
  | anything
deriving DecidableEq, Repr

namespace Leaf

/- The shape that each leaf has to meet. -/
def form : Leaf → Form
  | name => .single .ident "identifier"
  | lifetime => .single .lifetime "lifetime"
  | lifetimeName => .single .lifetime "lifetime"
  | lifetimeBound => .single .lifetime "lifetime"
  | abi => .single .string "string literal"
  | vis => .visibility
  | type => .verbatim "empty type tags"
  | ret => .verbatim "empty return type"
  | defaultValue => .verbatim "empty expression between tags"
  | pat => .verbatim "empty pattern"
  | rust => .anything
  | req => .path
  | typeBound => .path

/- The closing tag of a leaf as it is written. -/
def closeText
    (leaf : Leaf) :
    String :=
  "`</" ++ leaf.closeTag.text ++ ">`"

end Leaf

------------------------------------------------------------
-- Complaints
------------------------------------------------------------

/- What is wrong with the code of a leaf, and at which token. -/
inductive Malformed where
  /- The leaf is closed at once. -/
  | empty (close : Token)
  /- The first token is of another kind. -/
  | wrongKind (found : Token)
  /- A second token follows. -/
  | surplus (found : Token)
  /- A visibility does not start with `pub`. -/
  | notPub (found : Token)
  /- A visibility goes on with something but `( ... )`. -/
  | afterPub (found : Token)
  /- A visibility is restricted to something unknown. -/
  | restriction (found : Token)
  /- A relaxed path is empty. -/
  | onlyRelaxed (found : Token)
deriving DecidableEq, Repr

namespace Malformed

/- The token at which the complaint is raised. -/
def token : Malformed → Token
  | empty close => close
  | wrongKind found => found
  | surplus found => found
  | notPub found => found
  | afterPub found => found
  | restriction found => found
  | onlyRelaxed found => found

/- The complaint about a leaf without code. -/
def emptyText
    (leaf : Leaf) :
    String :=
  match leaf.form with
  | .single _ label =>
      "expected " ++ label ++ ", found " ++ leaf.closeText
  | .visibility => "empty input"
  | .path => "empty path"
  | .verbatim complaint => complaint
  | .anything => "empty section"

/- What the first token of a leaf was expected to be. -/
def expectedText
    (leaf : Leaf) :
    String :=
  match leaf.form with
  | .single _ label => label
  | _ => leaf.rule

/- The wording of a complaint. -/
def text
    (leaf : Leaf) :
    Malformed → String
  | empty _ => emptyText leaf
  | wrongKind found =>
      "expected " ++ expectedText leaf ++ ", found `"
        ++ found.text ++ "`"
  | surplus found =>
      "expected " ++ leaf.closeText ++ ", found `"
        ++ found.text ++ "`"
  | notPub found =>
      "start of invalid visibility specifier `"
        ++ found.text ++ "`"
  | afterPub found =>
      "invalid visibility specifier, unexpected `"
        ++ found.text ++ "` after `pub`"
  | restriction found =>
      "invalid visibility restriction `" ++ found.text ++ "`"
  | onlyRelaxed _ => "empty path after `?`"

end Malformed

------------------------------------------------------------
-- Building
------------------------------------------------------------

/- The words to which a visibility may be restricted alone. -/
def restrictedWords : List String :=
  ["crate", "self", "super"]

namespace Leaf

/- A single token of the kind that is expected. -/
def buildSingle
    (kind : Kind)
    (first : Token)
    (rest : Code) :
    Except Malformed Fragment :=
  if first.kind ≠ kind then
    .error (.wrongKind first)
  else
    match rest with
    | [] => .ok (.token first)
    | second :: _ => .error (.surplus second)

/-
  The restriction of a visibility: one of the known words, or
  `in` and at least one more token. Here `last` is the token
  that closes it.
-/
def checkRestriction
    (last : Token) :
    Code → Except Malformed Unit
  | [] => .error (.restriction last)
  | [word] =>
      if word.text ∈ restrictedWords then
        .ok ()
      else
        .error (.restriction word)
  | word :: _ :: _ =>
      if word.text = "in" then
        .ok ()
      else
        .error (.restriction word)

/- What may follow `pub` in a visibility. -/
def checkAfterPub : Code → Except Malformed Unit
  | [] => .ok ()
  | second :: more =>
      match more.getLast? with
      | none => .error (.afterPub second)
      | some last =>
          if second.text = "(" ∧ last.text = ")" then
            checkRestriction last more.dropLast
          else
            .error (.afterPub second)

/- A visibility. -/
def buildVisibility
    (first : Token)
    (rest : Code) :
    Except Malformed Fragment :=
  if first.kind = .ident ∧ first.text = "pub" then
    (checkAfterPub rest).map (fun _ => .code (first :: rest))
  else
    .error (.notPub first)

/- The path of a bound. -/
def buildPath
    (first : Token)
    (rest : Code) :
    Except Malformed Fragment :=
  if first.kind = .punct ∧ first.text = "?" then
    match rest with
    | [] => .error (.onlyRelaxed first)
    | _ :: _ =>
        .ok (.bound (.trait { path := rest, relaxed := true }))
  else
    .ok (.bound (.trait { path := first :: rest }))

/- The fragment of a leaf that holds `code` and is closed. -/
def build
    (leaf : Leaf)
    (code : Code)
    (close : Token) :
    Except Malformed Fragment :=
  match leaf.form, code with
  | .anything, _ => .ok (.code code)
  | _, [] => .error (.empty close)
  | .single kind _, first :: rest => buildSingle kind first rest
  | .visibility, first :: rest => buildVisibility first rest
  | .path, first :: rest => buildPath first rest
  | .verbatim _, _ :: _ => .ok (.code code)

end Leaf

end TraitMarkup
