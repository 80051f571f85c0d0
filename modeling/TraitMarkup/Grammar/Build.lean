import TraitMarkup.Grammar.Draft

/-
  From the draft of a section to the part of a declaration.

  There is no such part when something is missing, or when a
  value has a shape that the part does not allow for.

  Key definitions include:
    * `Section.genericsOf?`
    * `Section.build?`
-/

namespace TraitMarkup

namespace Section

------------------------------------------------------------
-- Generic Parameters And Bounds
------------------------------------------------------------

/-
  Generic parameters in the order they are declared in: first
  lifetimes, then types, then constants, each in source order.
-/
def genericsOf?
    (group : Section)
    (draft : Draft) :
    Option Generics := do
  let lifetimes ←
    draft.every? group .lifetimes Fragment.param?
  let types ← draft.every? group .types Fragment.param?
  let consts ← draft.every? group .consts Fragment.param?
  let reqs ← draft.every? group .reqs Fragment.traitBound?
  return {
    params := lifetimes ++ types ++ consts
    requirements := reqs }

/- A lifetime parameter. -/
def lifetimeParamOf?
    (draft : Draft) :
    Option GenericParam := do
  let name ← draft.the? lifetimeParam .name Fragment.token?
  let bounds ←
    draft.every? lifetimeParam .bounds Fragment.token?
  return .lifetime name bounds

/- A type parameter. -/
def typeParamOf?
    (draft : Draft) :
    Option GenericParam := do
  let name ← draft.the? typeParam .name Fragment.token?
  let bounds ← draft.every? typeParam .bounds Fragment.bound?
  return .type name bounds

/- A constant parameter. -/
def constParamOf?
    (draft : Draft) :
    Option GenericParam := do
  let name ← draft.the? constParam .name Fragment.token?
  let code ← draft.the? constParam .type Fragment.code?
  return .const name code

/- A bound under lifetimes of its own. -/
def forBoundOf?
    (draft : Draft) :
    Option Bound := do
  let lifetimes ←
    draft.every? forBound .lifetimes Fragment.token?
  let bound ←
    draft.the? forBound .bound Fragment.traitBound?
  return .forAll lifetimes bound

------------------------------------------------------------
-- Where Clauses
------------------------------------------------------------

/- A clause on a lifetime. -/
def lifetimeClauseOf?
    (draft : Draft) :
    Option WhereClause := do
  let name ←
    draft.the? lifetimeClause .lifetime Fragment.token?
  let bounds ←
    draft.every? lifetimeClause .bounds Fragment.token?
  return .lifetime name bounds

/- A clause on a type. -/
def typeClauseOf?
    (draft : Draft) :
    Option WhereClause := do
  let code ← draft.the? typeClause .type Fragment.code?
  let bounds ← draft.every? typeClause .bounds Fragment.bound?
  return .type { type := code, bounds := bounds }

/- A type clause under lifetimes of its own. -/
def forClauseOf?
    (draft : Draft) :
    Option WhereClause := do
  let lifetimes ←
    draft.every? forClause .lifetimes Fragment.token?
  let clause ←
    draft.the? forClause .clause Fragment.typeClause?
  return .forAll lifetimes clause

------------------------------------------------------------
-- Associated Items
------------------------------------------------------------

/- An associated type. -/
def assocTypeOf?
    (draft : Draft) :
    Option AssocType := do
  let name ← draft.the? assocType .name Fragment.token?
  let generics ←
    draft.optional? assocType .bounds Fragment.generics?
  let clauses ←
    draft.optional? assocType .clauses Fragment.clauses?
  return {
    name := name
    params := (generics.getD {}).params
    bounds := (generics.getD {}).requirements
    clauses := clauses.getD [] }

/- An associated constant. -/
def assocConstOf?
    (draft : Draft) :
    Option AssocConst := do
  let name ← draft.the? assocConst .name Fragment.token?
  let code ← draft.the? assocConst .type Fragment.code?
  let value ←
    draft.optional? assocConst .value Fragment.code?
  return { name := name, type := code, value := value }

/- An argument of a function. -/
def fnParamOf?
    (draft : Draft) :
    Option FnParam := do
  let arg ← draft.the? param .arg Fragment.code?
  let code ← draft.the? param .type Fragment.code?
  return {
    arg := arg
    type := code
    isPattern := draft.isPattern param }

/- An associated function. -/
def assocFnOf?
    (draft : Draft) :
    Option AssocFn := do
  let name ← draft.the? assocFn .name Fragment.token?
  let abi ← draft.optional? assocFn .abi Fragment.token?
  let generics ←
    draft.optional? assocFn .gparams Fragment.generics?
  let args ← draft.optional? assocFn .params Fragment.args?
  let ret ← draft.optional? assocFn .ret Fragment.code?
  let clauses ←
    draft.optional? assocFn .clauses Fragment.clauses?
  let body ← draft.optional? assocFn .body Fragment.code?
  return {
    name := name
    qualifiers :=
      { isUnsafe := draft.marked .unsafety, abi := abi }
    params := (generics.getD {}).params
    args := args.getD []
    ret := ret
    clauses := clauses.getD []
    body := body }

------------------------------------------------------------
-- The Trait
------------------------------------------------------------

/- The trait itself. -/
def traitDeclOf?
    (draft : Draft) :
    Option TraitDecl := do
  let name ← draft.the? trait .name Fragment.token?
  let vis ← draft.optional? trait .vis Fragment.code?
  let generics ←
    draft.optional? trait .bounds Fragment.generics?
  let clauses ←
    draft.optional? trait .clauses Fragment.clauses?
  let types ← draft.every? trait .types Fragment.assocType?
  let consts ← draft.every? trait .consts Fragment.assocConst?
  let fns ← draft.every? trait .fns Fragment.assocFn?
  return {
    name := name
    vis := vis
    isUnsafe := draft.marked .unsafety
    params := (generics.getD {}).params
    requirements := (generics.getD {}).requirements
    clauses := clauses.getD []
    types := types
    consts := consts
    fns := fns }

------------------------------------------------------------
-- All Sections
------------------------------------------------------------

/- The part of a declaration that a draft stands for. -/
def build?
    (group : Section)
    (draft : Draft) :
    Option Fragment :=
  match group with
  | trait => (traitDeclOf? draft).map .trait
  | bounds => (genericsOf? bounds draft).map .generics
  | gparams => (genericsOf? gparams draft).map .generics
  | lifetimeParam => (lifetimeParamOf? draft).map .param
  | typeParam => (typeParamOf? draft).map .param
  | constParam => (constParamOf? draft).map .param
  | forBound => (forBoundOf? draft).map .bound
  | clauses =>
      (draft.every? clauses .clauseList
        Fragment.clause?).map .clauses
  | lifetimeClause => (lifetimeClauseOf? draft).map .clause
  | typeClause => (typeClauseOf? draft).map .clause
  | forClause => (forClauseOf? draft).map .clause
  | assocType => (assocTypeOf? draft).map .assocType
  | assocConst => (assocConstOf? draft).map .assocConst
  | param => (fnParamOf? draft).map .arg
  | params =>
      (draft.every? params .params Fragment.arg?).map .args
  | assocFn => (assocFnOf? draft).map .assocFn

end Section

end TraitMarkup
