import TraitMarkup.Grammar.Build

/-
  Closing a section that misses nothing.

  The result is the part of a declaration that the draft stands
  for. A draft with a value of a foreign shape stands for none;
  its values are then put together as they are, in a tree of
  the same form.

  Key definitions include:
    * `Section.assemble`
    * `Section.finish`
-/

namespace TraitMarkup

namespace Section

------------------------------------------------------------
-- Loose Trees
------------------------------------------------------------

/- Generic parameters and bounds, whatever their shapes. -/
def assembleGenerics
    (group : Section)
    (draft : Draft) :
    Tree :=
  .node "BoundsSection"
    [("params",
        .ofList Fragment.toTree
          (draft.values group .lifetimes
            ++ draft.values group .types
            ++ draft.values group .consts)),
      ("requirements", draft.valuesTree group .reqs)]

/- An associated type, whatever the shapes of its parts. -/
def assembleAssocType
    (draft : Draft) :
    Except Lack Tree := do
  let generics :=
    (draft.valueTree assocType .bounds).orElse
      (Generics.toTree {})
  let params ← generics.part "params"
  let requirements ← generics.part "requirements"
  return .node "AssocType"
    [("name", draft.valueTree assocType .name),
      ("params", params),
      ("bounds", requirements),
      ("where",
        (draft.valueTree assocType .clauses).orElse
          (.list []))]

/- The generic parameters of an associated function. -/
def assembleFnParams
    (draft : Draft) :
    Except Lack Tree :=
  match draft.value? assocFn .gparams with
  | none => .ok (.list [])
  | some generics => generics.toTree.part "params"

/- An associated function, whatever the shapes of its parts. -/
def assembleAssocFn
    (draft : Draft) :
    Except Lack Tree := do
  let params ← assembleFnParams draft
  return .node "AssocFn"
    [("name", draft.valueTree assocFn .name),
      ("qualifiers",
        .node "FnQualifiers"
          [("unsafe", .flag (draft.marked .unsafety)),
            ("abi", draft.valueTree assocFn .abi)]),
      ("params", params),
      ("args",
        (draft.valueTree assocFn .params).orElse (.list [])),
      ("ret", draft.valueTree assocFn .ret),
      ("where",
        (draft.valueTree assocFn .clauses).orElse (.list [])),
      ("body", draft.valueTree assocFn .body)]

/- The trait, whatever the shapes of its parts. -/
def assembleTrait
    (draft : Draft) :
    Except Lack Tree := do
  let generics :=
    (draft.valueTree trait .bounds).orElse
      (Generics.toTree {})
  let params ← generics.part "params"
  let requirements ← generics.part "requirements"
  return .node "TraitDecl"
    [("name", draft.valueTree trait .name),
      ("vis", draft.valueTree trait .vis),
      ("unsafe", .flag (draft.marked .unsafety)),
      ("params", params),
      ("requirements", requirements),
      ("where",
        (draft.valueTree trait .clauses).orElse (.list [])),
      ("types", draft.valuesTree trait .types),
      ("consts", draft.valuesTree trait .consts),
      ("fns", draft.valuesTree trait .fns)]

/-
  The values of a draft put together. Only a section that takes
  a value apart can find something lacking in it.
-/
def assemble
    (group : Section)
    (draft : Draft) :
    Except Lack Tree :=
  let one := draft.valueTree group
  let all := draft.valuesTree group
  match group with
  | trait => assembleTrait draft
  | bounds => .ok (assembleGenerics bounds draft)
  | gparams => .ok (assembleGenerics gparams draft)
  | lifetimeParam =>
      .ok (.node "LifetimeParam"
        [("name", one .name), ("bounds", all .bounds)])
  | typeParam =>
      .ok (.node "TypeParam"
        [("name", one .name), ("bounds", all .bounds)])
  | constParam =>
      .ok (.node "ConstParam"
        [("name", one .name), ("type", one .type)])
  | forBound =>
      .ok (.node "ForBound"
        [("lifetimes", all .lifetimes), ("bound", one .bound)])
  | clauses => .ok (all .clauseList)
  | lifetimeClause =>
      .ok (.node "LifetimeClause"
        [("lifetime", one .lifetime), ("bounds", all .bounds)])
  | typeClause =>
      .ok (.node "TypeClause"
        [("type", one .type), ("bounds", all .bounds)])
  | forClause =>
      .ok (.node "ForClause"
        [("lifetimes", all .lifetimes),
          ("clause", one .clause)])
  | assocType => assembleAssocType draft
  | assocConst =>
      .ok (.node "AssocConst"
        [("name", one .name), ("type", one .type),
          ("default", one .value)])
  | param =>
      .ok (.node "FnParam"
        [("arg", one .arg), ("type", one .type),
          ("is_pattern", .flag (draft.isPattern param))])
  | params => .ok (all .params)
  | assocFn => assembleAssocFn draft

------------------------------------------------------------
-- All Sections
------------------------------------------------------------

/- The fragment of a section that misses nothing. -/
def finish
    (group : Section)
    (draft : Draft) :
    Except Lack Fragment :=
  match group.build? draft with
  | some fragment => .ok fragment
  | none => (group.assemble draft).map .loose

end Section

end TraitMarkup
