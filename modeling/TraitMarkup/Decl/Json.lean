import TraitMarkup.Decl.Basic
import TraitMarkup.Decl.Tree

/-
  Declarations as trees, and through them as JSON.

  A token is written as its text. A node gives its name and
  then its parts in order. Code that belongs to a node is
  written as one text.

  Key definitions include:
    * `Bound.toTree`, `GenericParam.toTree`
    * `WhereClause.toTree`
    * `TraitDecl.toTree`
    * `TraitDecl.toJson`
-/

namespace TraitMarkup

------------------------------------------------------------
-- Bounds And Parameters
------------------------------------------------------------

/- A trait bound as a node. -/
def TraitBound.toTree
    (bound : TraitBound) :
    Tree :=
  .node "TraitBound"
    [("path", .ofCode bound.path),
      ("relaxed", .flag bound.relaxed)]

/- A bound as a node. -/
def Bound.toTree : Bound → Tree
  | trait inner => inner.toTree
  | lifetime name =>
      .node "LifetimeBound" [("lifetime", .token name)]
  | forAll lifetimes inner =>
      .node "ForBound"
        [("lifetimes", .ofList .token lifetimes),
          ("bound", inner.toTree)]

/- A generic parameter as a node. -/
def GenericParam.toTree : GenericParam → Tree
  | lifetime name bounds =>
      .node "LifetimeParam"
        [("name", .token name),
          ("bounds", .ofList .token bounds)]
  | type name bounds =>
      .node "TypeParam"
        [("name", .token name),
          ("bounds", .ofList Bound.toTree bounds)]
  | const name valueType =>
      .node "ConstParam"
        [("name", .token name), ("type", .ofCode valueType)]

/- Generics as a node. -/
def Generics.toTree
    (generics : Generics) :
    Tree :=
  .node "BoundsSection"
    [("params", .ofList GenericParam.toTree generics.params),
      ("requirements",
        .ofList TraitBound.toTree generics.requirements)]

------------------------------------------------------------
-- Where Clauses
------------------------------------------------------------

/- A type clause as a node. -/
def TypeClause.toTree
    (clause : TypeClause) :
    Tree :=
  .node "TypeClause"
    [("type", .ofCode clause.type),
      ("bounds", .ofList Bound.toTree clause.bounds)]

/- A where clause as a node. -/
def WhereClause.toTree : WhereClause → Tree
  | lifetime name bounds =>
      .node "LifetimeClause"
        [("lifetime", .token name),
          ("bounds", .ofList .token bounds)]
  | type inner => inner.toTree
  | forAll lifetimes inner =>
      .node "ForClause"
        [("lifetimes", .ofList .token lifetimes),
          ("clause", inner.toTree)]

------------------------------------------------------------
-- Items And Declarations
------------------------------------------------------------

/- An associated type as a node. -/
def AssocType.toTree
    (item : AssocType) :
    Tree :=
  .node "AssocType"
    [("name", .token item.name),
      ("params", .ofList GenericParam.toTree item.params),
      ("bounds", .ofList TraitBound.toTree item.bounds),
      ("where", .ofList WhereClause.toTree item.clauses)]

/- An associated constant as a node. -/
def AssocConst.toTree
    (item : AssocConst) :
    Tree :=
  .node "AssocConst"
    [("name", .token item.name),
      ("type", .ofCode item.type),
      ("default", .ofOption .ofCode item.value)]

/- An argument as a node. -/
def FnParam.toTree
    (param : FnParam) :
    Tree :=
  .node "FnParam"
    [("arg", .ofCode param.arg),
      ("type", .ofCode param.type),
      ("is_pattern", .flag param.isPattern)]

/- Qualifiers as a node. -/
def Qualifiers.toTree
    (qualifiers : Qualifiers) :
    Tree :=
  .node "FnQualifiers"
    [("unsafe", .flag qualifiers.isUnsafe),
      ("abi", .ofOption .token qualifiers.abi)]

/- An associated function as a node. -/
def AssocFn.toTree
    (item : AssocFn) :
    Tree :=
  .node "AssocFn"
    [("name", .token item.name),
      ("qualifiers", item.qualifiers.toTree),
      ("params", .ofList GenericParam.toTree item.params),
      ("args", .ofList FnParam.toTree item.args),
      ("ret", .ofOption .ofCode item.ret),
      ("where", .ofList WhereClause.toTree item.clauses),
      ("body", .ofOption .ofCode item.body)]

/- A declaration as a node. -/
def TraitDecl.toTree
    (decl : TraitDecl) :
    Tree :=
  .node "TraitDecl"
    [("name", .token decl.name),
      ("vis", .ofOption .ofCode decl.vis),
      ("unsafe", .flag decl.isUnsafe),
      ("params", .ofList GenericParam.toTree decl.params),
      ("requirements",
        .ofList TraitBound.toTree decl.requirements),
      ("where", .ofList WhereClause.toTree decl.clauses),
      ("types", .ofList AssocType.toTree decl.types),
      ("consts", .ofList AssocConst.toTree decl.consts),
      ("fns", .ofList AssocFn.toTree decl.fns)]

/- A declaration as JSON. -/
def TraitDecl.toJson
    (decl : TraitDecl) :
    Json :=
  decl.toTree.toJson

end TraitMarkup
