/-
  The vocabulary of tags.

  Key definitions include:
    * `Tag`
    * `Tag.text`
    * `Tag.ofText?`
-/

namespace TraitMarkup

/- The tags that have a meaning somewhere in the markup. -/
inductive Tag where
  | trait
  | name
  | vis
  | unsafety
  | bounds
  | lifetime
  | lifetimeBound
  | type
  | typeBound
  | forBound
  | const
  | req
  | clauses
  | lifetimeClause
  | typeClause
  | forClause
  | assocType
  | assocConst
  | assocFn
  | defaultValue
  | abi
  | gparams
  | params
  | param
  | pat
  | ret
  | rust
deriving DecidableEq, Repr

namespace Tag

/- The name that a tag is written with. -/
def text : Tag → String
  | trait => "trait"
  | name => "name"
  | vis => "vis"
  | unsafety => "unsafe"
  | bounds => "bounds"
  | lifetime => "lifetime"
  | lifetimeBound => "lifetime-bound"
  | type => "type"
  | typeBound => "type-bound"
  | forBound => "for-bound"
  | const => "const"
  | req => "req"
  | clauses => "where"
  | lifetimeClause => "lifetime-clause"
  | typeClause => "type-clause"
  | forClause => "for-clause"
  | assocType => "assoctype"
  | assocConst => "assocconst"
  | assocFn => "assocfn"
  | defaultValue => "default-value"
  | abi => "extern"
  | gparams => "gparams"
  | params => "params"
  | param => "param"
  | pat => "pat"
  | ret => "ret"
  | rust => "rust"

/- Every tag. -/
def all : List Tag :=
  [trait, name, vis, unsafety, bounds, lifetime,
    lifetimeBound, type, typeBound, forBound, const, req,
    clauses, lifetimeClause, typeClause, forClause, assocType,
    assocConst, assocFn, defaultValue, abi, gparams, params,
    param, pat, ret, rust]

/- The tag of a written name. -/
def ofText?
    (written : String) :
    Option Tag :=
  all.find? (fun tag => tag.text = written)

/- A tag is found again by its written name. -/
theorem ofText?_text
    (tag : Tag) :
    ofText? tag.text = some tag := by
  cases tag <;> rfl

/- The tag that is found has the written name. -/
theorem text_of_ofText?
    {written : String}
    {tag : Tag}
    (hFound : ofText? written = some tag) :
    tag.text = written := by
  simpa using List.find?_some hFound

end Tag

end TraitMarkup
