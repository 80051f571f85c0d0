import TraitMarkup.Grammar.Child

/-
  Drafts: what an open section has collected so far.

  A draft lists the children that were completed and the marks
  that were set, in source order. Everything else about an
  open section is read off that list: the value of a field is
  the last child that fills it, and a field that takes several
  children holds them in source order.

  Key definitions include:
    * `Entry`
    * `Draft`
    * `Draft.add`
    * `Draft.values`, `Draft.value?`
    * `Draft.the?`, `Draft.optional?`, `Draft.every?`
    * `Draft.marked`
    * `Draft.toTree`
-/

namespace TraitMarkup

------------------------------------------------------------
-- Drafts
------------------------------------------------------------

/- One thing that happened inside a section. -/
inductive Entry where
  | child (tag : Tag) (fragment : Fragment)
  | mark (tag : Tag)
deriving DecidableEq, Repr

/- What happened inside a section, in source order. -/
structure Draft where
  entries : List Entry
deriving DecidableEq, Repr

namespace Draft

/- A section that was just opened. -/
def empty : Draft := ⟨[]⟩

/- The draft with one more entry. -/
def add
    (draft : Draft)
    (entry : Entry) :
    Draft :=
  ⟨draft.entries ++ [entry]⟩

end Draft

------------------------------------------------------------
-- Fields Of A Draft
------------------------------------------------------------

namespace Entry

/- The value that the entry gives to a field of its section. -/
def value?
    (group : Section)
    (field : Field) :
    Entry → Option Fragment
  | mark _ => none
  | child tag fragment =>
      match group.child? tag with
      | none => none
      | some kind =>
          if kind.field = field then
            some (kind.adapt fragment)
          else
            none

/- The tag of the entry, if it fills the field. -/
def tagFor?
    (group : Section)
    (field : Field)
    (entry : Entry) :
    Option Tag :=
  match entry, entry.value? group field with
  | child tag _, some _ => some tag
  | _, _ => none

end Entry

namespace Draft

/- The values given to a field, in source order. -/
def values
    (draft : Draft)
    (group : Section)
    (field : Field) :
    List Fragment :=
  draft.entries.filterMap (Entry.value? group field)

/- The value that a field has. -/
def value?
    (draft : Draft)
    (group : Section)
    (field : Field) :
    Option Fragment :=
  (draft.values group field).getLast?.bind Fragment.some?

/- The value of a field, seen in one way. -/
def the?
    {α : Type}
    (draft : Draft)
    (group : Section)
    (field : Field)
    (view : Fragment → Option α) :
    Option α :=
  (draft.value? group field).bind view

/-
  The value of a field that may stay empty, seen in one way.
  A value that cannot be seen that way is no value at all.
-/
def optional?
    {α : Type}
    (draft : Draft)
    (group : Section)
    (field : Field)
    (view : Fragment → Option α) :
    Option (Option α) :=
  match draft.value? group field with
  | none => some none
  | some fragment => (view fragment).map some

/- All values of a field, if all are seen in one way. -/
def every?
    {α : Type}
    (draft : Draft)
    (group : Section)
    (field : Field)
    (view : Fragment → Option α) :
    Option (List α) :=
  (draft.values group field).mapM view

/- The mark was set. -/
def marked
    (draft : Draft)
    (tag : Tag) :
    Bool :=
  draft.entries.contains (.mark tag)

/- The argument of the section was given as a pattern. -/
def isPattern
    (draft : Draft)
    (group : Section) :
    Bool :=
  (draft.entries.filterMap
    (Entry.tagFor? group .arg)).getLast? = some .pat

end Draft

------------------------------------------------------------
-- Drafts As Trees
------------------------------------------------------------

/- How a field of a draft is shown. -/
inductive Occurrence where
  | once
  | repeated
  | mark
  | pattern
deriving DecidableEq, Repr

namespace Section

/- The name under which a draft of the section is shown. -/
def draftName : Section → String
  | trait => "TraitState"
  | bounds => "BoundsState"
  | gparams => "BoundsState"
  | lifetimeParam => "LifetimeParamState"
  | typeParam => "TypeParamState"
  | constParam => "ConstParamState"
  | forBound => "ForBoundState"
  | clauses => "WhereState"
  | lifetimeClause => "LifetimeClauseState"
  | typeClause => "TypeClauseState"
  | forClause => "ForClauseState"
  | assocType => "AssocTypeState"
  | assocConst => "AssocConstState"
  | param => "ParamState"
  | params => "ParamsState"
  | assocFn => "AssocFnState"

/- The fields of a draft of generic parameters. -/
def genericFields : List (Field × Occurrence) :=
  [(.lifetimes, .repeated), (.types, .repeated),
    (.consts, .repeated), (.reqs, .repeated)]

/- The fields of a draft in the order they are shown. -/
def fields : Section → List (Field × Occurrence)
  | trait =>
      [(.name, .once), (.vis, .once), (.unsafety, .mark),
        (.bounds, .once), (.clauses, .once),
        (.types, .repeated), (.consts, .repeated),
        (.fns, .repeated)]
  | bounds => genericFields
  | gparams => genericFields
  | lifetimeParam => [(.name, .once), (.bounds, .repeated)]
  | typeParam => [(.name, .once), (.bounds, .repeated)]
  | constParam => [(.name, .once), (.type, .once)]
  | forBound => [(.lifetimes, .repeated), (.bound, .once)]
  | clauses => [(.clauseList, .repeated)]
  | lifetimeClause =>
      [(.lifetime, .once), (.bounds, .repeated)]
  | typeClause => [(.type, .once), (.bounds, .repeated)]
  | forClause => [(.lifetimes, .repeated), (.clause, .once)]
  | assocType =>
      [(.name, .once), (.bounds, .once), (.clauses, .once)]
  | assocConst =>
      [(.name, .once), (.type, .once), (.value, .once)]
  | param =>
      [(.arg, .once), (.isPattern, .pattern), (.type, .once)]
  | params => [(.params, .repeated)]
  | assocFn =>
      [(.name, .once), (.unsafety, .mark), (.abi, .once),
        (.gparams, .once), (.params, .once), (.ret, .once),
        (.clauses, .once), (.body, .once)]

end Section

namespace Draft

/- The value of a field as a tree. -/
def valueTree
    (draft : Draft)
    (group : Section)
    (field : Field) :
    Tree :=
  .ofOption Fragment.toTree (draft.value? group field)

/- All values of a field as a tree. -/
def valuesTree
    (draft : Draft)
    (group : Section)
    (field : Field) :
    Tree :=
  .ofList Fragment.toTree (draft.values group field)

/- A field of a draft as it is shown. -/
def fieldTree
    (draft : Draft)
    (group : Section)
    (field : Field) :
    Occurrence → Tree
  | .once => draft.valueTree group field
  | .repeated => draft.valuesTree group field
  | .mark => .flag (draft.marked .unsafety)
  | .pattern => .flag (draft.isPattern group)

/- The draft of a section as a node. -/
def toTree
    (draft : Draft)
    (group : Section) :
    Tree :=
  .node group.draftName
    (group.fields.map
      (fun (field, occurrence) =>
        (field.key, draft.fieldTree group field occurrence)))

end Draft

end TraitMarkup
