import TraitMarkup.Text.Json
import TraitMarkup.Token.Basic

/-
  Trees: the form in which declarations are written out.

  A tree is a token, a flag, a list, or a node with a name and
  named parts. A tree has no shape to keep to, so it can also
  hold a part that no declaration would have in its place.

  A part that stands for code is written as one text. Every
  other list is written item by item.

  Key definitions include:
    * `Tree`
    * `Tree.bare`
    * `Tree.code?`, `Tree.part`
    * `Tree.toJson`
    * `Lack`
    * `Tree.lack?`
-/

namespace TraitMarkup

------------------------------------------------------------
-- Trees
------------------------------------------------------------

/- A written form. -/
inductive Tree where
  | nothing
  | flag (value : Bool)
  | token (token : Token)
  | list (items : List Tree)
  | node (name : String) (parts : List (String × Tree))
deriving Repr, Inhabited

namespace Tree

/- A run of tokens. -/
def ofCode
    (code : Code) :
    Tree :=
  list (code.map token)

/- A list of parts. -/
def ofList
    {α : Type}
    (toTree : α → Tree)
    (items : List α) :
    Tree :=
  list (items.map toTree)

/- A part that may be absent. -/
def ofOption
    {α : Type}
    (toTree : α → Tree) :
    Option α → Tree
  | none => nothing
  | some value => toTree value

end Tree

------------------------------------------------------------
-- Equality
------------------------------------------------------------

namespace Tree

mutual

/- Equality of trees is decidable. -/
def decideEq
    (left right : Tree) :
    Decidable (left = right) :=
  match left, right with
  | nothing, nothing => isTrue rfl
  | flag a, flag b =>
      if h : a = b then
        isTrue (by rw [h])
      else
        isFalse (by simp [h])
  | token a, token b =>
      if h : a = b then
        isTrue (by rw [h])
      else
        isFalse (by simp [h])
  | list as, list bs =>
      match decideItemsEq as bs with
      | isTrue h => isTrue (by rw [h])
      | isFalse h => isFalse (by simp [h])
  | node a as, node b bs =>
      if hName : a = b then
        match decidePartsEq as bs with
        | isTrue h => isTrue (by rw [hName, h])
        | isFalse h => isFalse (by simp [h])
      else
        isFalse (by simp [hName])
  | nothing, flag _ | nothing, token _ | nothing, list _
  | nothing, node _ _ | flag _, nothing | flag _, token _
  | flag _, list _ | flag _, node _ _ | token _, nothing
  | token _, flag _ | token _, list _ | token _, node _ _
  | list _, nothing | list _, flag _ | list _, token _
  | list _, node _ _ | node _ _, nothing | node _ _, flag _
  | node _ _, token _ | node _ _, list _ =>
      isFalse (by simp)

/- Equality of lists of trees is decidable. -/
def decideItemsEq
    (left right : List Tree) :
    Decidable (left = right) :=
  match left, right with
  | [], [] => isTrue rfl
  | [], _ :: _ | _ :: _, [] => isFalse (by simp)
  | a :: as, b :: bs =>
      match decideEq a b with
      | isFalse h => isFalse (by simp [h])
      | isTrue hHead =>
          match decideItemsEq as bs with
          | isTrue h => isTrue (by rw [hHead, h])
          | isFalse h => isFalse (by simp [h])

/- Equality of lists of parts is decidable. -/
def decidePartsEq
    (left right : List (String × Tree)) :
    Decidable (left = right) :=
  match left, right with
  | [], [] => isTrue rfl
  | [], _ :: _ | _ :: _, [] => isFalse (by simp)
  | (key, a) :: as, (other, b) :: bs =>
      if hKey : key = other then
        match decideEq a b with
        | isFalse h => isFalse (by simp [h])
        | isTrue hHead =>
            match decidePartsEq as bs with
            | isTrue h => isTrue (by rw [hKey, hHead, h])
            | isFalse h => isFalse (by simp [h])
      else
        isFalse (by simp [hKey])

end

instance : DecidableEq Tree := decideEq

end Tree

------------------------------------------------------------
-- Bare Forms
------------------------------------------------------------

namespace Tree

mutual

/- The tree without gaps and places. -/
def bare : Tree → Tree
  | nothing => nothing
  | flag value => flag value
  | token t => token t.bare
  | list items => list (bareItems items)
  | node name parts => node name (bareParts parts)

/- The items without gaps and places. -/
def bareItems : List Tree → List Tree
  | [] => []
  | item :: rest => item.bare :: bareItems rest

/- The parts without gaps and places. -/
def bareParts : List (String × Tree) → List (String × Tree)
  | [] => []
  | (key, part) :: rest => (key, part.bare) :: bareParts rest

end

end Tree

------------------------------------------------------------
-- Views
------------------------------------------------------------

/- A part was asked for that a tree does not have. -/
structure Lack where
  node : String
  part : String
deriving DecidableEq, Repr

namespace Lack

/- The wording of the complaint. -/
def message
    (lack : Lack) :
    String :=
  "'" ++ lack.node ++ "' object has no attribute '"
    ++ lack.part ++ "'"

end Lack

namespace Tree

/- How messages call a tree. -/
def nodeName : Tree → String
  | nothing => "NoneType"
  | flag _ => "bool"
  | token _ => "Token"
  | list _ => "tuple"
  | node name _ => name

/- The token, if the tree is one. -/
def token? : Tree → Option Token
  | token t => some t
  | _ => none

/- The code, if the tree is a run of tokens. -/
def code? : Tree → Option Code
  | list items => items.mapM token?
  | _ => none

/- The tree holds nothing at all. -/
def isVoid : Tree → Bool
  | nothing => true
  | list [] => true
  | _ => false

/- The tree, or another in place of a void one. -/
def orElse
    (tree other : Tree) :
    Tree :=
  if tree.isVoid then other else tree

/- The part of a node that has this key. -/
def part
    (tree : Tree)
    (key : String) :
    Except Lack Tree :=
  match tree with
  | node name parts =>
      match parts.lookup key with
      | some found => .ok found
      | none => .error ⟨name, key⟩
  | _ => .error ⟨tree.nodeName, key⟩

end Tree

------------------------------------------------------------
-- Trees As JSON
------------------------------------------------------------

namespace Json

/- A named node with its parts. -/
def node
    (name : String)
    (parts : List (String × Json)) :
    Json :=
  obj (("node", str name) :: parts)

end Json

namespace Tree

/- The part under this key stands for code. -/
def isCodeKey
    (key : String) :
    Bool :=
  ["vis", "path", "type", "default", "arg", "ret",
    "body"].contains key

/- The code that a part is written as. -/
def codeAt?
    (key : String)
    (part : Tree) :
    Option Code :=
  if isCodeKey key then part.code? else none

mutual

/- The tree as a value. -/
def toJson : Tree → Json
  | nothing => .null
  | flag value => .bool value
  | token t => .str t.text
  | list items => .arr (itemsJson items)
  | node name parts => .node name (partsJson parts)

/- The items as values. -/
def itemsJson : List Tree → List Json
  | [] => []
  | item :: rest => item.toJson :: itemsJson rest

/- The parts as members. -/
def partsJson : List (String × Tree) → List (String × Json)
  | [] => []
  | (key, part) :: rest =>
      let value :=
        match codeAt? key part with
        | some code => .str code.render
        | none => part.toJson
      (key, value) :: partsJson rest

end

end Tree

------------------------------------------------------------
-- Code That Cannot Be Written
------------------------------------------------------------

namespace Tree

/-
  What keeps a list from being written as code. The gap before
  a token is asked for only when a token stands before it.
-/
def codeLack?
    (started : Bool) :
    List Tree → Option Lack
  | [] => none
  | token _ :: rest => codeLack? true rest
  | item :: _ =>
      some ⟨item.nodeName, if started then "spaced" else "text"⟩

mutual

/- The first thing that keeps a tree from being written. -/
def lack? : Tree → Option Lack
  | list items => lackOfItems? items
  | node _ parts => lackOfParts? parts
  | _ => none

/- The first thing that keeps items from being written. -/
def lackOfItems? : List Tree → Option Lack
  | [] => none
  | item :: rest => item.lack? <|> lackOfItems? rest

/- The first thing that keeps parts from being written. -/
def lackOfParts? : List (String × Tree) → Option Lack
  | [] => none
  | (key, part) :: rest =>
      let here :=
        match isCodeKey key, part with
        | true, list items => codeLack? false items
        | _, other => other.lack?
      here <|> lackOfParts? rest

end

end Tree

end TraitMarkup
