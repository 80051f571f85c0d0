import TraitMarkup.Token.Basic

/-
  Trait declarations and their parts.

  Names, lifetimes and ABI strings are single tokens. Types,
  paths, patterns, expressions and bodies are code that is
  never looked into.

  Key definitions include:
    * `TraitBound`, `Bound`
    * `GenericParam`, `Generics`
    * `TypeClause`, `WhereClause`
    * `AssocType`, `AssocConst`
    * `FnParam`, `Qualifiers`, `AssocFn`
    * `TraitDecl`

  Every type has a `bare` form that drops gaps and places from
  its tokens.
-/

namespace TraitMarkup

------------------------------------------------------------
-- Bounds
------------------------------------------------------------

/- A path used as a bound, relaxed by a leading `?` or not. -/
structure TraitBound where
  path : Code
  relaxed : Bool := false
deriving DecidableEq, Repr, Inhabited

/- A bound of a type. -/
inductive Bound where
  | trait (bound : TraitBound)
  | lifetime (name : Token)
  | forAll (lifetimes : List Token) (bound : TraitBound)
deriving DecidableEq, Repr

------------------------------------------------------------
-- Generic Parameters
------------------------------------------------------------

/- A parameter of a trait, an associated type or a function. -/
inductive GenericParam where
  | lifetime (name : Token) (bounds : List Token)
  | type (name : Token) (bounds : List Bound)
  | const (name : Token) (valueType : Code)
deriving DecidableEq, Repr

/- Generic parameters together with required bounds. -/
structure Generics where
  params : List GenericParam := []
  requirements : List TraitBound := []
deriving DecidableEq, Repr, Inhabited

------------------------------------------------------------
-- Where Clauses
------------------------------------------------------------

/- A type and the bounds it has to meet. -/
structure TypeClause where
  type : Code
  bounds : List Bound := []
deriving DecidableEq, Repr

/- One clause of a where section. -/
inductive WhereClause where
  | lifetime (name : Token) (bounds : List Token)
  | type (clause : TypeClause)
  | forAll (lifetimes : List Token) (clause : TypeClause)
deriving DecidableEq, Repr

------------------------------------------------------------
-- Associated Items
------------------------------------------------------------

/- An associated type. -/
structure AssocType where
  name : Token
  params : List GenericParam := []
  bounds : List TraitBound := []
  clauses : List WhereClause := []
deriving DecidableEq, Repr

/- An associated constant. -/
structure AssocConst where
  name : Token
  type : Code
  value : Option Code := none
deriving DecidableEq, Repr

/- An argument of a function: a name or a pattern. -/
structure FnParam where
  arg : Code
  type : Code
  isPattern : Bool := false
deriving DecidableEq, Repr

/- What stands before `fn`. -/
structure Qualifiers where
  isUnsafe : Bool := false
  abi : Option Token := none
deriving DecidableEq, Repr

/- An associated function. -/
structure AssocFn where
  name : Token
  qualifiers : Qualifiers := {}
  params : List GenericParam := []
  args : List FnParam := []
  ret : Option Code := none
  clauses : List WhereClause := []
  /- A function without a body has to be implemented. -/
  body : Option Code := none
deriving DecidableEq, Repr

namespace AssocFn

/- The function has no default definition. -/
def isRequired
    (item : AssocFn) :
    Bool :=
  item.body.isNone

end AssocFn

------------------------------------------------------------
-- Trait Declarations
------------------------------------------------------------

/- A whole trait. -/
structure TraitDecl where
  name : Token
  vis : Option Code := none
  isUnsafe : Bool := false
  params : List GenericParam := []
  requirements : List TraitBound := []
  clauses : List WhereClause := []
  types : List AssocType := []
  consts : List AssocConst := []
  fns : List AssocFn := []
deriving DecidableEq, Repr

------------------------------------------------------------
-- Bare Forms
------------------------------------------------------------

/- The bound without gaps and places. -/
def TraitBound.bare
    (bound : TraitBound) :
    TraitBound :=
  { bound with path := bound.path.bare }

/- The bound without gaps and places. -/
def Bound.bare : Bound → Bound
  | trait bound => trait bound.bare
  | lifetime name => lifetime name.bare
  | forAll lifetimes bound =>
      forAll (lifetimes.map Token.bare) bound.bare

/- The parameter without gaps and places. -/
def GenericParam.bare : GenericParam → GenericParam
  | lifetime name bounds =>
      lifetime name.bare (bounds.map Token.bare)
  | type name bounds =>
      type name.bare (bounds.map Bound.bare)
  | const name valueType =>
      const name.bare valueType.bare

/- The section without gaps and places. -/
def Generics.bare
    (generics : Generics) :
    Generics where
  params := generics.params.map GenericParam.bare
  requirements := generics.requirements.map TraitBound.bare

/- The clause without gaps and places. -/
def TypeClause.bare
    (clause : TypeClause) :
    TypeClause where
  type := clause.type.bare
  bounds := clause.bounds.map Bound.bare

/- The clause without gaps and places. -/
def WhereClause.bare : WhereClause → WhereClause
  | lifetime name bounds =>
      lifetime name.bare (bounds.map Token.bare)
  | type clause => type clause.bare
  | forAll lifetimes clause =>
      forAll (lifetimes.map Token.bare) clause.bare

/- The item without gaps and places. -/
def AssocType.bare
    (item : AssocType) :
    AssocType where
  name := item.name.bare
  params := item.params.map GenericParam.bare
  bounds := item.bounds.map TraitBound.bare
  clauses := item.clauses.map WhereClause.bare

/- The item without gaps and places. -/
def AssocConst.bare
    (item : AssocConst) :
    AssocConst where
  name := item.name.bare
  type := item.type.bare
  value := item.value.map Code.bare

/- The argument without gaps and places. -/
def FnParam.bare
    (param : FnParam) :
    FnParam :=
  { param with arg := param.arg.bare, type := param.type.bare }

/- The qualifiers without gaps and places. -/
def Qualifiers.bare
    (qualifiers : Qualifiers) :
    Qualifiers :=
  { qualifiers with abi := qualifiers.abi.map Token.bare }

/- The item without gaps and places. -/
def AssocFn.bare
    (item : AssocFn) :
    AssocFn where
  name := item.name.bare
  qualifiers := item.qualifiers.bare
  params := item.params.map GenericParam.bare
  args := item.args.map FnParam.bare
  ret := item.ret.map Code.bare
  clauses := item.clauses.map WhereClause.bare
  body := item.body.map Code.bare

/- The declaration without gaps and places. -/
def TraitDecl.bare
    (decl : TraitDecl) :
    TraitDecl :=
  { decl with
    name := decl.name.bare
    vis := decl.vis.map Code.bare
    params := decl.params.map GenericParam.bare
    requirements := decl.requirements.map TraitBound.bare
    clauses := decl.clauses.map WhereClause.bare
    types := decl.types.map AssocType.bare
    consts := decl.consts.map AssocConst.bare
    fns := decl.fns.map AssocFn.bare }

end TraitMarkup
