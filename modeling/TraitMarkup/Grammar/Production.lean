import TraitMarkup.Decl.Fragment
import TraitMarkup.Grammar.Tag

/-
  The productions of the markup.

  A leaf holds code; a section holds further sections and
  leaves. Both end at their closing tag. The same tag may open
  different productions in different sections, so a production
  has an id of its own.

  Key definitions include:
    * `Leaf`
    * `Section`
    * `Production`
    * `Production.id`, `Production.ofId?`
    * `Production.rule`
    * `Production.closeTag`
    * `Production.yields`
-/

namespace TraitMarkup

------------------------------------------------------------
-- Leaves
------------------------------------------------------------

/- The productions that hold code. -/
inductive Leaf where
  | name
  | lifetime
  | lifetimeName
  | lifetimeBound
  | abi
  | vis
  | type
  | ret
  | defaultValue
  | pat
  | rust
  | req
  | typeBound
deriving DecidableEq, Repr

namespace Leaf

/- The id of a leaf. -/
def id : Leaf → String
  | name => "name"
  | lifetime => "lifetime"
  | lifetimeName => "lifetime-name"
  | lifetimeBound => "lifetime-bound"
  | abi => "extern"
  | vis => "vis"
  | type => "type"
  | ret => "ret"
  | defaultValue => "default-value"
  | pat => "pat"
  | rust => "rust"
  | req => "req"
  | typeBound => "type-bound"

/- How messages call a leaf. -/
def rule : Leaf → String
  | name => "name"
  | lifetime => "lifetime"
  | lifetimeName => "lifetime parameter name"
  | lifetimeBound => "lifetime bound"
  | abi => "associated function `extern` qualifier"
  | vis => "visibility"
  | type => "type"
  | ret => "associated function return type"
  | defaultValue => "associated constant default value"
  | pat => "associated function parameter pattern"
  | rust => "associated function default definition"
  | req => "supertrait"
  | typeBound => "type bound"

/- The tag that closes a leaf. -/
def closeTag : Leaf → Tag
  | name => .name
  | lifetime => .lifetime
  | lifetimeName => .name
  | lifetimeBound => .lifetimeBound
  | abi => .abi
  | vis => .vis
  | type => .type
  | ret => .ret
  | defaultValue => .defaultValue
  | pat => .pat
  | rust => .rust
  | req => .req
  | typeBound => .typeBound

end Leaf

------------------------------------------------------------
-- Sections
------------------------------------------------------------

/- The productions that hold other productions. -/
inductive Section where
  | trait
  | bounds
  | gparams
  | lifetimeParam
  | typeParam
  | constParam
  | forBound
  | clauses
  | lifetimeClause
  | typeClause
  | forClause
  | assocType
  | assocConst
  | param
  | params
  | assocFn
deriving DecidableEq, Repr

namespace Section

/- The id of a section. -/
def id : Section → String
  | trait => "trait"
  | bounds => "bounds"
  | gparams => "gparams"
  | lifetimeParam => "lifetime-param"
  | typeParam => "type-param"
  | constParam => "const"
  | forBound => "for-bound"
  | clauses => "where"
  | lifetimeClause => "lifetime-clause"
  | typeClause => "type-clause"
  | forClause => "for-clause"
  | assocType => "assoctype"
  | assocConst => "assocconst"
  | param => "param"
  | params => "params"
  | assocFn => "assocfn"

/- How messages call a section. -/
def rule : Section → String
  | trait => "trait"
  | bounds => "bounds"
  | gparams => "generic parameters"
  | lifetimeParam => "lifetime parameter"
  | typeParam => "generic type"
  | constParam => "const generic parameter"
  | forBound => "`for` bound"
  | clauses => "where clause"
  | lifetimeClause => "lifetime clause"
  | typeClause => "type clause"
  | forClause => "`for` clause"
  | assocType => "associated type"
  | assocConst => "associated constant"
  | param => "associated function parameter"
  | params => "associated function parameters"
  | assocFn => "associated function"

/- The tag that closes a section. -/
def closeTag : Section → Tag
  | trait => .trait
  | bounds => .bounds
  | gparams => .gparams
  | lifetimeParam => .lifetime
  | typeParam => .type
  | constParam => .const
  | forBound => .forBound
  | clauses => .clauses
  | lifetimeClause => .lifetimeClause
  | typeClause => .typeClause
  | forClause => .forClause
  | assocType => .assocType
  | assocConst => .assocConst
  | param => .param
  | params => .params
  | assocFn => .assocFn

end Section

------------------------------------------------------------
-- Productions
------------------------------------------------------------

/- A leaf or a section. -/
inductive Production where
  | ofLeaf (leaf : Leaf)
  | ofSection (group : Section)
deriving DecidableEq, Repr

namespace Production

/- The id of a production. -/
def id : Production → String
  | ofLeaf leaf => leaf.id
  | ofSection group => group.id

/- How messages call a production. -/
def rule : Production → String
  | ofLeaf leaf => leaf.rule
  | ofSection group => group.rule

/- The tag that closes a production. -/
def closeTag : Production → Tag
  | ofLeaf leaf => leaf.closeTag
  | ofSection group => group.closeTag

/- Every production. -/
def all : List Production :=
  ([.name, .lifetime, .lifetimeName, .lifetimeBound, .abi,
      .vis, .type, .ret, .defaultValue, .pat, .rust, .req,
      .typeBound] : List Leaf).map ofLeaf ++
    ([.trait, .bounds, .gparams, .lifetimeParam, .typeParam,
      .constParam, .forBound, .clauses, .lifetimeClause,
      .typeClause, .forClause, .assocType, .assocConst, .param,
      .params, .assocFn] : List Section).map ofSection

/- The production of an id. -/
def ofId?
    (id : String) :
    Option Production :=
  all.find? (fun production => production.id = id)

/- A production is found again by its id. -/
theorem ofId?_id
    (production : Production) :
    ofId? production.id = some production := by
  rcases production with leaf | group
  · cases leaf <;> rfl
  · cases group <;> rfl

/- The production that is found has the id. -/
theorem id_of_ofId?
    {id : String}
    {production : Production}
    (hFound : ofId? id = some production) :
    production.id = id := by
  simpa using List.find?_some hFound

end Production

------------------------------------------------------------
-- Shapes Of Fragments
------------------------------------------------------------

namespace Leaf

/- The fragment has the shape that the leaf declares. -/
def yields : Leaf → Fragment → Bool
  | name, .token _ => true
  | lifetime, .token _ => true
  | lifetimeName, .token _ => true
  | lifetimeBound, .token _ => true
  | abi, .token _ => true
  | vis, .code _ => true
  | type, .code _ => true
  | ret, .code _ => true
  | defaultValue, .code _ => true
  | pat, .code _ => true
  | rust, .code _ => true
  | req, .bound (.trait _) => true
  | typeBound, .bound (.trait _) => true
  | _, _ => false

end Leaf

namespace Section

/- The fragment has the shape that the section declares. -/
def yields : Section → Fragment → Bool
  | trait, .trait _ => true
  | bounds, .generics _ => true
  | gparams, .generics _ => true
  | lifetimeParam, .param (.lifetime _ _) => true
  | typeParam, .param (.type _ _) => true
  | constParam, .param (.const _ _) => true
  | forBound, .bound (.forAll _ _) => true
  | clauses, .clauses _ => true
  | lifetimeClause, .clause (.lifetime _ _) => true
  | typeClause, .clause (.type _) => true
  | forClause, .clause (.forAll _ _) => true
  | assocType, .assocType _ => true
  | assocConst, .assocConst _ => true
  | param, .arg _ => true
  | params, .args _ => true
  | assocFn, .assocFn _ => true
  | _, _ => false

end Section

namespace Production

/- The fragment has the shape that the production declares. -/
def yields : Production → Fragment → Bool
  | ofLeaf leaf => leaf.yields
  | ofSection group => group.yields

end Production

end TraitMarkup
