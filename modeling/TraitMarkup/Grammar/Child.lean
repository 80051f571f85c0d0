import TraitMarkup.Grammar.Production

/-
  What each section may hold.

  A section names the tags that may open a child in it, the
  production each of them stands for, and the field the child
  fills. A field takes a single child or any number of them.
  Some sections may also be marked by an empty tag.

  Key definitions include:
    * `Field`
    * `Child`
    * `Section.child?`
    * `Section.hasMark`
    * `Child.adapt`
-/

namespace TraitMarkup

------------------------------------------------------------
-- Fields
------------------------------------------------------------

/- The parts that a section collects. -/
inductive Field where
  | name
  | vis
  | unsafety
  | bounds
  | clauses
  | types
  | consts
  | fns
  | lifetimes
  | reqs
  | type
  | bound
  | clauseList
  | lifetime
  | clause
  | value
  | arg
  | isPattern
  | params
  | abi
  | gparams
  | ret
  | body
deriving DecidableEq, Repr

namespace Field

/- The key under which a field is written out. -/
def key : Field → String
  | name => "name"
  | vis => "vis"
  | unsafety => "unsafe"
  | bounds => "bounds"
  | clauses => "where"
  | types => "types"
  | consts => "consts"
  | fns => "fns"
  | lifetimes => "lifetimes"
  | reqs => "reqs"
  | type => "type"
  | bound => "bound"
  | clauseList => "clauses"
  | lifetime => "lifetime"
  | clause => "clause"
  | value => "default"
  | arg => "arg"
  | isPattern => "is_pattern"
  | params => "params"
  | abi => "abi"
  | gparams => "gparams"
  | ret => "ret"
  | body => "body"

end Field

------------------------------------------------------------
-- Children
------------------------------------------------------------

/- How a child is taken into its section. -/
inductive Adaptation where
  /- The fragment is kept as it is. -/
  | keep
  /- A lifetime becomes a bound. -/
  | lifetimeAsBound
  /- A name becomes an argument of one token. -/
  | nameAsArg
deriving DecidableEq, Repr

/- What a tag stands for inside a section. -/
structure Child where
  production : Production
  field : Field
  /- The field takes any number of children. -/
  repeated : Bool
  /- How messages call the field. -/
  label : String
  adaptation : Adaptation
deriving DecidableEq, Repr

namespace Child

/- A child that may occur once. -/
def once
    (production : Production)
    (field : Field) :
    Child where
  production := production
  field := field
  repeated := false
  label := field.key
  adaptation := .keep

/- A child that may occur any number of times. -/
def many
    (production : Production)
    (field : Field) :
    Child where
  production := production
  field := field
  repeated := true
  label := field.key
  adaptation := .keep

/- The child under another label. -/
def called
    (child : Child)
    (label : String) :
    Child :=
  { child with label := label }

/- The child taken in another way. -/
def taken
    (child : Child)
    (adaptation : Adaptation) :
    Child :=
  { child with adaptation := adaptation }

/- The fragment as the field holds it. -/
def adapt
    (child : Child)
    (fragment : Fragment) :
    Fragment :=
  match child.adaptation, fragment with
  | .keep, _ => fragment
  | .lifetimeAsBound, .token name => .bound (.lifetime name)
  | .lifetimeAsBound, other =>
      .loose (.node "LifetimeBound" [("lifetime", other.toTree)])
  | .nameAsArg, .token name => .code [name]
  | .nameAsArg, other => .loose (.list [other.toTree])

end Child

------------------------------------------------------------
-- The Table Of Children
------------------------------------------------------------

namespace Section

/- The children that give a type its bounds. -/
def boundChild? : Tag → Option Child
  | .typeBound =>
      some (.many (.ofLeaf .typeBound) .bounds)
  | .lifetimeBound =>
      some ((Child.many (.ofLeaf .lifetimeBound) .bounds).taken
        .lifetimeAsBound)
  | .forBound =>
      some (.many (.ofSection .forBound) .bounds)
  | _ => none

/- The children that declare generic parameters. -/
def genericChild? : Tag → Option Child
  | .lifetime =>
      some (.many (.ofSection .lifetimeParam) .lifetimes)
  | .type => some (.many (.ofSection .typeParam) .types)
  | .const => some (.many (.ofSection .constParam) .consts)
  | _ => none

/- The child that a tag opens inside a section. -/
def child? : Section → Tag → Option Child
  | trait, .name => some (.once (.ofLeaf .name) .name)
  | trait, .vis =>
      some ((Child.once (.ofLeaf .vis) .vis).called
        "visibility")
  | trait, .bounds =>
      some (.once (.ofSection .bounds) .bounds)
  | trait, .clauses =>
      some (.once (.ofSection .clauses) .clauses)
  | trait, .assocType =>
      some (.many (.ofSection .assocType) .types)
  | trait, .assocConst =>
      some (.many (.ofSection .assocConst) .consts)
  | trait, .assocFn =>
      some (.many (.ofSection .assocFn) .fns)
  | bounds, .req => some (.many (.ofLeaf .req) .reqs)
  | bounds, tag => genericChild? tag
  | gparams, tag => genericChild? tag
  | lifetimeParam, .name =>
      some ((Child.once (.ofLeaf .lifetimeName) .name).called
        "lifetime")
  | lifetimeParam, .lifetimeBound =>
      some (.many (.ofLeaf .lifetimeBound) .bounds)
  | typeParam, .name => some (.once (.ofLeaf .name) .name)
  | typeParam, tag => boundChild? tag
  | constParam, .name => some (.once (.ofLeaf .name) .name)
  | constParam, .type => some (.once (.ofLeaf .type) .type)
  | forBound, .lifetime =>
      some (.many (.ofLeaf .lifetime) .lifetimes)
  | forBound, .typeBound =>
      some (.once (.ofLeaf .typeBound) .bound)
  | clauses, .lifetimeClause =>
      some (.many (.ofSection .lifetimeClause) .clauseList)
  | clauses, .typeClause =>
      some (.many (.ofSection .typeClause) .clauseList)
  | clauses, .forClause =>
      some (.many (.ofSection .forClause) .clauseList)
  | lifetimeClause, .lifetime =>
      some (.once (.ofLeaf .lifetime) .lifetime)
  | lifetimeClause, .lifetimeBound =>
      some (.many (.ofLeaf .lifetimeBound) .bounds)
  | typeClause, .type => some (.once (.ofLeaf .type) .type)
  | typeClause, tag => boundChild? tag
  | forClause, .lifetime =>
      some (.many (.ofLeaf .lifetime) .lifetimes)
  | forClause, .typeClause =>
      some ((Child.once (.ofSection .typeClause) .clause).called
        "type clause")
  | assocType, .name => some (.once (.ofLeaf .name) .name)
  | assocType, .bounds =>
      some (.once (.ofSection .bounds) .bounds)
  | assocType, .clauses =>
      some (.once (.ofSection .clauses) .clauses)
  | assocConst, .name => some (.once (.ofLeaf .name) .name)
  | assocConst, .type => some (.once (.ofLeaf .type) .type)
  | assocConst, .defaultValue =>
      some ((Child.once (.ofLeaf .defaultValue) .value).called
        "default value")
  | param, .name =>
      some (((Child.once (.ofLeaf .name) .arg).called
        "argument").taken .nameAsArg)
  | param, .pat =>
      some ((Child.once (.ofLeaf .pat) .arg).called "argument")
  | param, .type => some (.once (.ofLeaf .type) .type)
  | params, .param => some (.many (.ofSection .param) .params)
  | assocFn, .name => some (.once (.ofLeaf .name) .name)
  | assocFn, .abi =>
      some ((Child.once (.ofLeaf .abi) .abi).called
        "`extern` ABI")
  | assocFn, .gparams =>
      some (.once (.ofSection .gparams) .gparams)
  | assocFn, .params =>
      some (.once (.ofSection .params) .params)
  | assocFn, .ret =>
      some ((Child.once (.ofLeaf .ret) .ret).called
        "return type")
  | assocFn, .clauses =>
      some (.once (.ofSection .clauses) .clauses)
  | assocFn, .rust =>
      some ((Child.once (.ofLeaf .rust) .body).called
        "default definition")
  | _, _ => none

/- The section may be marked by the empty tag. -/
def hasMark : Section → Tag → Bool
  | trait, .unsafety => true
  | assocFn, .unsafety => true
  | _, _ => false

/- A child is closed by the tag that opened it. -/
theorem closeTag_of_child?
    {group : Section}
    {tag : Tag}
    {child : Child}
    (hChild : group.child? tag = some child) :
    child.production.closeTag = tag := by
  cases group <;> cases tag <;> cases hChild <;> rfl

end Section

end TraitMarkup
