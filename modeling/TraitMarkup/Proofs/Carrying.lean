import TraitMarkup.Proofs.Descent
import TraitMarkup.Proofs.Relabeling

/-
  Reading relabeled tokens.

  Nothing that reads a trait looks at gaps and places. To read
  relabeled tokens is to read the tokens and to relabel what
  comes of it: a fragment, or the cause of a failure. Only the
  wording of a failure may show a gap, and it shows none of the
  places.

  Key definitions include:
    * `Draft.relabel`
    * `Cause.relabel`
    * `Relabel.Agrees`

  Main declarations:
    * `Section.finish_relabel`
    * `Section.close_relabel`
    * `Production.parse_relabel`
    * `Cause.text_relabel`
-/

namespace TraitMarkup

------------------------------------------------------------
-- Views
------------------------------------------------------------

namespace Fragment

variable
  (r : Relabel)
  (fragment : Fragment)

theorem token?_relabel :
    (fragment.relabel r).token? =
      fragment.token?.map r.apply := by
  cases fragment <;> rfl

theorem code?_relabel :
    (fragment.relabel r).code? =
      fragment.code?.map (Code.relabel r) := by
  cases fragment <;> rfl

theorem bound?_relabel :
    (fragment.relabel r).bound? =
      fragment.bound?.map (Bound.relabel r) := by
  cases fragment <;> rfl

theorem traitBound?_relabel :
    (fragment.relabel r).traitBound? =
      fragment.traitBound?.map (TraitBound.relabel r) := by
  cases fragment with
  | bound b => cases b <;> rfl
  | _ => rfl

theorem param?_relabel :
    (fragment.relabel r).param? =
      fragment.param?.map (GenericParam.relabel r) := by
  cases fragment <;> rfl

theorem generics?_relabel :
    (fragment.relabel r).generics? =
      fragment.generics?.map (Generics.relabel r) := by
  cases fragment <;> rfl

theorem clause?_relabel :
    (fragment.relabel r).clause? =
      fragment.clause?.map (WhereClause.relabel r) := by
  cases fragment <;> rfl

theorem typeClause?_relabel :
    (fragment.relabel r).typeClause? =
      fragment.typeClause?.map (TypeClause.relabel r) := by
  cases fragment with
  | clause c => cases c <;> rfl
  | _ => rfl

theorem clauses?_relabel :
    (fragment.relabel r).clauses? =
      fragment.clauses?.map
        (List.map (WhereClause.relabel r)) := by
  cases fragment <;> rfl

theorem arg?_relabel :
    (fragment.relabel r).arg? =
      fragment.arg?.map (FnParam.relabel r) := by
  cases fragment <;> rfl

theorem args?_relabel :
    (fragment.relabel r).args? =
      fragment.args?.map (List.map (FnParam.relabel r)) := by
  cases fragment <;> rfl

theorem assocType?_relabel :
    (fragment.relabel r).assocType? =
      fragment.assocType?.map (AssocType.relabel r) := by
  cases fragment <;> rfl

theorem assocConst?_relabel :
    (fragment.relabel r).assocConst? =
      fragment.assocConst?.map (AssocConst.relabel r) := by
  cases fragment <;> rfl

theorem assocFn?_relabel :
    (fragment.relabel r).assocFn? =
      fragment.assocFn?.map (AssocFn.relabel r) := by
  cases fragment <;> rfl

theorem some?_relabel :
    (fragment.relabel r).some? =
      fragment.some?.map (relabel r) := by
  cases fragment <;> rfl

theorem nodeName_relabel :
    (fragment.relabel r).nodeName = fragment.nodeName := by
  unfold nodeName
  rw [toTree_relabel, Tree.nodeName_relabel]

end Fragment

/- A child is relabeled before or after it is taken in. -/
theorem Child.adapt_relabel
    (r : Relabel)
    (child : Child)
    (fragment : Fragment) :
    child.adapt (fragment.relabel r) =
      (child.adapt fragment).relabel r := by
  have hNode :
      ∀ other : Fragment,
        Fragment.loose (.node "LifetimeBound"
            [("lifetime", (other.relabel r).toTree)]) =
          (Fragment.loose (.node "LifetimeBound"
            [("lifetime", other.toTree)])).relabel r := by
    intro other
    rw [Fragment.toTree_relabel]
    simp [Fragment.relabel, Tree.relabel, Tree.relabelParts]
  have hList :
      ∀ other : Fragment,
        Fragment.loose (.list [(other.relabel r).toTree]) =
          (Fragment.loose (.list [other.toTree])).relabel r := by
    intro other
    rw [Fragment.toTree_relabel]
    simp [Fragment.relabel, Tree.relabel, Tree.relabelItems]
  unfold adapt
  cases child.adaptation with
  | keep => rfl
  | lifetimeAsBound =>
      cases fragment with
      | token name => rfl
      | _ => exact hNode _
  | nameAsArg =>
      cases fragment with
      | token name => rfl
      | _ => exact hList _

------------------------------------------------------------
-- Drafts
------------------------------------------------------------

/- The entry with its tokens relabeled. -/
def Entry.relabel
    (r : Relabel) :
    Entry → Entry
  | child tag fragment => child tag (fragment.relabel r)
  | mark tag => mark tag

/- The draft with its tokens relabeled. -/
def Draft.relabel
    (r : Relabel)
    (draft : Draft) :
    Draft :=
  ⟨draft.entries.map (Entry.relabel r)⟩

namespace Entry

/- The value that a relabeled entry gives to a field. -/
theorem value?_relabel
    (r : Relabel)
    (entry : Entry)
    (group : Section)
    (field : Field) :
    (entry.relabel r).value? group field =
      (entry.value? group field).map (Fragment.relabel r) := by
  cases entry with
  | mark tag => rfl
  | child tag fragment =>
      simp only [relabel, value?]
      cases group.child? tag with
      | none => rfl
      | some kind =>
          by_cases hField : kind.field = field <;>
            simp [hField, Child.adapt_relabel]

/- The tag by which a relabeled entry fills a field. -/
theorem tagFor?_relabel
    (r : Relabel)
    (entry : Entry)
    (group : Section)
    (field : Field) :
    (entry.relabel r).tagFor? group field =
      entry.tagFor? group field := by
  unfold tagFor?
  rw [value?_relabel]
  cases entry with
  | mark tag => rfl
  | child tag fragment =>
      cases value? group field (child tag fragment) <;> rfl

end Entry

namespace Draft

variable
  (r : Relabel)
  (draft : Draft)
  (group : Section)
  (field : Field)

theorem relabel_add
    (entry : Entry) :
    (draft.add entry).relabel r =
      (draft.relabel r).add (entry.relabel r) := by
  simp [add, relabel]

theorem values_relabel :
    (draft.relabel r).values group field =
      (draft.values group field).map (Fragment.relabel r) := by
  have hEntry :
      Entry.value? group field ∘ Entry.relabel r =
        fun entry =>
          (entry.value? group field).map (Fragment.relabel r) :=
    funext (fun entry =>
      Entry.value?_relabel r entry group field)
  simp only [values, relabel, List.filterMap_map,
    List.map_filterMap, hEntry]

theorem value?_relabel :
    (draft.relabel r).value? group field =
      (draft.value? group field).map (Fragment.relabel r) := by
  unfold value?
  rw [values_relabel, List.getLast?_map]
  cases (draft.values group field).getLast? with
  | none => rfl
  | some fragment => exact fragment.some?_relabel r

variable
  {α : Type}
  {view : Fragment → Option α}
  {carry : α → α}
  (hView :
    ∀ fragment,
      view (fragment.relabel r) = (view fragment).map carry)

include hView

theorem the?_relabel :
    (draft.relabel r).the? group field view =
      (draft.the? group field view).map carry := by
  unfold the?
  rw [value?_relabel]
  cases draft.value? group field with
  | none => rfl
  | some fragment => exact hView fragment

theorem optional?_relabel :
    (draft.relabel r).optional? group field view =
      (draft.optional? group field view).map
        (Option.map carry) := by
  unfold optional?
  rw [value?_relabel]
  cases draft.value? group field with
  | none => rfl
  | some fragment =>
      simp [hView, Function.comp_def]

theorem every?_relabel :
    (draft.relabel r).every? group field view =
      (draft.every? group field view).map
        (List.map carry) := by
  unfold every?
  rw [values_relabel]
  induction draft.values group field with
  | nil => rfl
  | cons fragment rest ih =>
      simp only [List.map_cons, List.mapM_cons, ih, hView]
      cases view fragment with
      | none => rfl
      | some a => cases rest.mapM view <;> rfl

end Draft

namespace Draft

variable
  (r : Relabel)
  (draft : Draft)

theorem marked_relabel
    (tag : Tag) :
    (draft.relabel r).marked tag = draft.marked tag := by
  have hEntry :
      ∀ entry : Entry,
        (Entry.mark tag == entry.relabel r) =
          (Entry.mark tag == entry) := by
    intro entry
    cases entry <;> rfl
  simp only [marked, relabel, List.contains_eq_any_beq,
    List.any_map, Function.comp_def, hEntry]

theorem isPattern_relabel
    (group : Section) :
    (draft.relabel r).isPattern group =
      draft.isPattern group := by
  have hEntry :
      Entry.tagFor? group .arg ∘ Entry.relabel r =
        Entry.tagFor? group .arg :=
    funext (fun entry =>
      Entry.tagFor?_relabel r entry group .arg)
  simp only [isPattern, relabel, List.filterMap_map, hEntry]

theorem valueTree_relabel
    (group : Section)
    (field : Field) :
    (draft.relabel r).valueTree group field =
      (draft.valueTree group field).relabel r := by
  unfold valueTree
  rw [value?_relabel]
  exact Tree.relabel_ofOption r (Fragment.toTree_relabel r) _

theorem valuesTree_relabel
    (group : Section)
    (field : Field) :
    (draft.relabel r).valuesTree group field =
      (draft.valuesTree group field).relabel r := by
  unfold valuesTree
  rw [values_relabel]
  exact Tree.relabel_ofList r (Fragment.toTree_relabel r) _

end Draft

------------------------------------------------------------
-- Building
------------------------------------------------------------

namespace Section

variable
  (r : Relabel)
  (draft : Draft)

/- The parameters of generics that may be absent. -/
theorem params_getD_relabel
    (generics : Option Generics) :
    ((generics.map (Generics.relabel r)).getD {}).params =
      (generics.getD {}).params.map
        (GenericParam.relabel r) := by
  cases generics <;> rfl

/- The requirements of generics that may be absent. -/
theorem requirements_getD_relabel
    (generics : Option Generics) :
    ((generics.map (Generics.relabel r)).getD
        {}).requirements =
      (generics.getD {}).requirements.map
        (TraitBound.relabel r) := by
  cases generics <;> rfl

/- A list that may be absent. -/
theorem getD_map_list
    {α : Type}
    (carry : α → α)
    (items : Option (List α)) :
    (items.map (List.map carry)).getD [] =
      (items.getD []).map carry := by
  cases items <;> rfl

theorem genericsOf?_relabel
    (group : Section) :
    genericsOf? group (draft.relabel r) =
      (genericsOf? group draft).map (Generics.relabel r) := by
  unfold genericsOf?
  simp only [
    draft.every?_relabel r group _ (Fragment.param?_relabel r),
    draft.every?_relabel r group _
      (Fragment.traitBound?_relabel r)]
  cases draft.every? group .lifetimes Fragment.param? with
  | none => rfl
  | some lifetimes =>
      cases draft.every? group .types Fragment.param? with
      | none => rfl
      | some types =>
          cases draft.every? group .consts Fragment.param? with
          | none => rfl
          | some consts =>
              cases draft.every? group .reqs
                  Fragment.traitBound? with
              | none => rfl
              | some reqs => simp [Generics.relabel]

theorem lifetimeParamOf?_relabel :
    lifetimeParamOf? (draft.relabel r) =
      (lifetimeParamOf? draft).map (GenericParam.relabel r) := by
  simp [lifetimeParamOf?, GenericParam.relabel, Option.bind_map,
    Option.map_bind, Function.comp_def,
    draft.the?_relabel r _ _ (Fragment.token?_relabel r),
    draft.every?_relabel r _ _ (Fragment.token?_relabel r)]

theorem typeParamOf?_relabel :
    typeParamOf? (draft.relabel r) =
      (typeParamOf? draft).map (GenericParam.relabel r) := by
  simp [typeParamOf?, GenericParam.relabel, Option.bind_map,
    Option.map_bind, Function.comp_def,
    draft.the?_relabel r _ _ (Fragment.token?_relabel r),
    draft.every?_relabel r _ _ (Fragment.bound?_relabel r)]

theorem constParamOf?_relabel :
    constParamOf? (draft.relabel r) =
      (constParamOf? draft).map (GenericParam.relabel r) := by
  simp [constParamOf?, GenericParam.relabel, Option.bind_map,
    Option.map_bind, Function.comp_def,
    draft.the?_relabel r _ _ (Fragment.token?_relabel r),
    draft.the?_relabel r _ _ (Fragment.code?_relabel r)]

theorem forBoundOf?_relabel :
    forBoundOf? (draft.relabel r) =
      (forBoundOf? draft).map (Bound.relabel r) := by
  simp [forBoundOf?, Bound.relabel, Option.bind_map,
    Option.map_bind, Function.comp_def,
    draft.every?_relabel r _ _ (Fragment.token?_relabel r),
    draft.the?_relabel r _ _ (Fragment.traitBound?_relabel r)]

theorem lifetimeClauseOf?_relabel :
    lifetimeClauseOf? (draft.relabel r) =
      (lifetimeClauseOf? draft).map (WhereClause.relabel r) := by
  simp [lifetimeClauseOf?, WhereClause.relabel, Option.bind_map,
    Option.map_bind, Function.comp_def,
    draft.the?_relabel r _ _ (Fragment.token?_relabel r),
    draft.every?_relabel r _ _ (Fragment.token?_relabel r)]

theorem typeClauseOf?_relabel :
    typeClauseOf? (draft.relabel r) =
      (typeClauseOf? draft).map (WhereClause.relabel r) := by
  simp [typeClauseOf?, WhereClause.relabel, Option.bind_map,
    Option.map_bind, Function.comp_def,
    TypeClause.relabel,
    draft.the?_relabel r _ _ (Fragment.code?_relabel r),
    draft.every?_relabel r _ _ (Fragment.bound?_relabel r)]

theorem forClauseOf?_relabel :
    forClauseOf? (draft.relabel r) =
      (forClauseOf? draft).map (WhereClause.relabel r) := by
  simp [forClauseOf?, WhereClause.relabel, Option.bind_map,
    Option.map_bind, Function.comp_def,
    draft.every?_relabel r _ _ (Fragment.token?_relabel r),
    draft.the?_relabel r _ _ (Fragment.typeClause?_relabel r)]

theorem assocTypeOf?_relabel :
    assocTypeOf? (draft.relabel r) =
      (assocTypeOf? draft).map (AssocType.relabel r) := by
  simp [assocTypeOf?, AssocType.relabel, Option.bind_map,
    Option.map_bind, Function.comp_def,
    draft.the?_relabel r _ _ (Fragment.token?_relabel r),
    draft.optional?_relabel r _ _
      (Fragment.generics?_relabel r),
    draft.optional?_relabel r _ _
      (Fragment.clauses?_relabel r),
    params_getD_relabel,
    requirements_getD_relabel,
    getD_map_list]

theorem assocConstOf?_relabel :
    assocConstOf? (draft.relabel r) =
      (assocConstOf? draft).map (AssocConst.relabel r) := by
  simp [assocConstOf?, AssocConst.relabel, Option.bind_map,
    Option.map_bind, Function.comp_def,
    draft.the?_relabel r _ _ (Fragment.token?_relabel r),
    draft.the?_relabel r _ _ (Fragment.code?_relabel r),
    draft.optional?_relabel r _ _
      (Fragment.code?_relabel r)]

theorem fnParamOf?_relabel :
    fnParamOf? (draft.relabel r) =
      (fnParamOf? draft).map (FnParam.relabel r) := by
  simp [fnParamOf?, FnParam.relabel, Option.bind_map,
    Option.map_bind, Function.comp_def,
    draft.isPattern_relabel r,
    draft.the?_relabel r _ _ (Fragment.code?_relabel r)]

theorem assocFnOf?_relabel :
    assocFnOf? (draft.relabel r) =
      (assocFnOf? draft).map (AssocFn.relabel r) := by
  simp [assocFnOf?, AssocFn.relabel, Option.bind_map,
    Option.map_bind, Function.comp_def,
    Qualifiers.relabel,
    draft.marked_relabel r,
    draft.the?_relabel r _ _ (Fragment.token?_relabel r),
    draft.optional?_relabel r _ _
      (Fragment.token?_relabel r),
    draft.optional?_relabel r _ _
      (Fragment.generics?_relabel r),
    draft.optional?_relabel r _ _
      (Fragment.args?_relabel r),
    draft.optional?_relabel r _ _
      (Fragment.code?_relabel r),
    draft.optional?_relabel r _ _
      (Fragment.clauses?_relabel r),
    params_getD_relabel,
    getD_map_list]

theorem traitDeclOf?_relabel :
    traitDeclOf? (draft.relabel r) =
      (traitDeclOf? draft).map (TraitDecl.relabel r) := by
  simp [traitDeclOf?, TraitDecl.relabel, Option.bind_map,
    Option.map_bind, Function.comp_def,
    draft.marked_relabel r,
    draft.the?_relabel r _ _ (Fragment.token?_relabel r),
    draft.optional?_relabel r _ _ (Fragment.code?_relabel r),
    draft.optional?_relabel r _ _
      (Fragment.generics?_relabel r),
    draft.optional?_relabel r _ _
      (Fragment.clauses?_relabel r),
    draft.every?_relabel r _ _ (Fragment.assocType?_relabel r),
    draft.every?_relabel r _ _ (Fragment.assocConst?_relabel r),
    draft.every?_relabel r _ _ (Fragment.assocFn?_relabel r),
    params_getD_relabel, requirements_getD_relabel,
    getD_map_list]

/- A part is built from a relabeled draft, or relabeled. -/
theorem build?_relabel
    (group : Section) :
    group.build? (draft.relabel r) =
      (group.build? draft).map (Fragment.relabel r) := by
  have hClauses :=
    draft.every?_relabel r clauses .clauseList
      (Fragment.clause?_relabel r)
  have hArgs :=
    draft.every?_relabel r params .params
      (Fragment.arg?_relabel r)
  cases group <;>
    simp only [build?, genericsOf?_relabel,
      lifetimeParamOf?_relabel, typeParamOf?_relabel,
      constParamOf?_relabel, forBoundOf?_relabel,
      lifetimeClauseOf?_relabel, typeClauseOf?_relabel,
      forClauseOf?_relabel, assocTypeOf?_relabel,
      assocConstOf?_relabel, fnParamOf?_relabel,
      assocFnOf?_relabel, traitDeclOf?_relabel,
      hClauses, hArgs, Option.map_map] <;>
    rfl

end Section

------------------------------------------------------------
-- Closing
------------------------------------------------------------

namespace Tree

variable
  (r : Relabel)
  (tree : Tree)

theorem isVoid_relabel :
    (tree.relabel r).isVoid = tree.isVoid := by
  cases tree with
  | list items =>
      cases items <;> simp [relabel, relabelItems, isVoid]
  | _ => simp [relabel, isVoid]

theorem orElse_relabel
    (other : Tree) :
    (tree.relabel r).orElse (other.relabel r) =
      (tree.orElse other).relabel r := by
  unfold orElse
  rw [isVoid_relabel]
  split <;> rfl

theorem part_relabel
    (key : String) :
    (tree.relabel r).part key =
      (tree.part key).map (relabel r) := by
  cases tree with
  | node name parts =>
      have hLookup :
          (relabelParts r parts).lookup key =
            (parts.lookup key).map (relabel r) := by
        induction parts with
        | nil => rfl
        | cons part parts ih =>
            rcases part with ⟨other, part⟩
            simp only [relabelParts, List.lookup_cons]
            by_cases hKey : key == other <;> simp [hKey, ih]
      simp only [relabel, part, hLookup]
      cases parts.lookup key <;> rfl
  | _ => simp [relabel, part, nodeName, Except.map]

end Tree

namespace Section

variable
  (r : Relabel)
  (draft : Draft)

theorem assembleGenerics_relabel
    (group : Section) :
    assembleGenerics group (draft.relabel r) =
      (assembleGenerics group draft).relabel r := by
  have hParams :=
    Tree.relabel_ofList r (Fragment.toTree_relabel r)
      (draft.values group .lifetimes
        ++ draft.values group .types
        ++ draft.values group .consts)
  simp only [List.map_append] at hParams
  simp only [assembleGenerics, Tree.relabel,
    Tree.relabelParts, draft.values_relabel r,
    draft.valuesTree_relabel r, hParams]

/- A list of nothing has no tokens. -/
theorem orElse_nil_relabel
    (tree : Tree) :
    (tree.relabel r).orElse (.list []) =
      (tree.orElse (.list [])).relabel r := by
  have hNil := tree.orElse_relabel r (.list [])
  rwa [Tree.relabel, Tree.relabelItems] at hNil

/- Generics of nothing have no tokens. -/
theorem orElse_generics_relabel
    (tree : Tree) :
    (tree.relabel r).orElse (Generics.toTree {}) =
      (tree.orElse (Generics.toTree {})).relabel r := by
  have hNone := tree.orElse_relabel r (Generics.toTree {})
  rwa [← Generics.toTree_relabel] at hNone

theorem assembleAssocType_relabel :
    assembleAssocType (draft.relabel r) =
      (assembleAssocType draft).map (Tree.relabel r) := by
  simp only [assembleAssocType, draft.valueTree_relabel r,
    orElse_generics_relabel, orElse_nil_relabel,
    Tree.part_relabel]
  generalize (draft.valueTree assocType .bounds).orElse
    (Generics.toTree {}) = generics
  cases generics.part "params" with
  | error lack => rfl
  | ok params =>
      cases generics.part "requirements" with
      | error lack => rfl
      | ok requirements =>
          simp [bind, pure, Except.map, Except.bind,
            Except.pure, Tree.relabel, Tree.relabelParts]

theorem assembleFnParams_relabel :
    assembleFnParams (draft.relabel r) =
      (assembleFnParams draft).map (Tree.relabel r) := by
  unfold assembleFnParams
  rw [draft.value?_relabel]
  cases draft.value? assocFn .gparams with
  | none => simp [Except.map, Tree.relabel, Tree.relabelItems]
  | some generics =>
      simp only [Option.map_some, Fragment.toTree_relabel]
      exact generics.toTree.part_relabel r "params"

theorem assembleAssocFn_relabel :
    assembleAssocFn (draft.relabel r) =
      (assembleAssocFn draft).map (Tree.relabel r) := by
  simp only [assembleAssocFn, draft.valueTree_relabel r,
    assembleFnParams_relabel, orElse_nil_relabel,
    draft.marked_relabel r]
  cases assembleFnParams draft with
  | error lack => rfl
  | ok params =>
      simp [bind, pure, Except.map, Except.bind, Except.pure,
        Tree.relabel, Tree.relabelParts]

theorem assembleTrait_relabel :
    assembleTrait (draft.relabel r) =
      (assembleTrait draft).map (Tree.relabel r) := by
  simp only [assembleTrait, draft.valueTree_relabel r,
    draft.valuesTree_relabel r, draft.marked_relabel r,
    orElse_generics_relabel, orElse_nil_relabel,
    Tree.part_relabel]
  generalize (draft.valueTree trait .bounds).orElse
    (Generics.toTree {}) = generics
  cases generics.part "params" with
  | error lack => rfl
  | ok params =>
      cases generics.part "requirements" with
      | error lack => rfl
      | ok requirements =>
          simp [bind, pure, Except.map, Except.bind,
            Except.pure, Tree.relabel, Tree.relabelParts]

/- Loose values are put together, or relabeled. -/
theorem assemble_relabel
    (group : Section) :
    group.assemble (draft.relabel r) =
      (group.assemble draft).map (Tree.relabel r) := by
  cases group with
  | trait => exact assembleTrait_relabel r draft
  | assocType => exact assembleAssocType_relabel r draft
  | assocFn => exact assembleAssocFn_relabel r draft
  | _ =>
      simp [assemble, Except.map, Tree.relabel,
        Tree.relabelParts, assembleGenerics_relabel,
        draft.valueTree_relabel r, draft.valuesTree_relabel r,
        draft.isPattern_relabel r]

/- A section is finished, or relabeled. -/
theorem finish_relabel
    (group : Section) :
    group.finish (draft.relabel r) =
      (group.finish draft).map (Fragment.relabel r) := by
  unfold finish
  rw [build?_relabel, assemble_relabel]
  cases group.build? draft with
  | some fragment => rfl
  | none => cases group.assemble draft <;> rfl

end Section

------------------------------------------------------------
-- Causes
------------------------------------------------------------

/- The complaint with its token relabeled. -/
def Malformed.relabel
    (r : Relabel) :
    Malformed → Malformed
  | empty close => empty (r.apply close)
  | wrongKind found => wrongKind (r.apply found)
  | surplus found => surplus (r.apply found)
  | notPub found => notPub (r.apply found)
  | afterPub found => afterPub (r.apply found)
  | restriction found => restriction (r.apply found)
  | onlyRelaxed found => onlyRelaxed (r.apply found)

/- The cause with its tokens relabeled. -/
def Cause.relabel
    (r : Relabel) :
    Cause → Cause
  | endOfInput last => endOfInput (last.map r.apply)
  | unexpected found => unexpected (r.apply found)
  | redefined label prior found =>
      redefined label (prior.map (Fragment.relabel r))
        (r.apply found)
  | incomplete missing subject close =>
      incomplete missing (subject.map r.apply) (r.apply close)
  | malformed complaint => malformed (complaint.relabel r)

namespace Cause

variable
  (r : Relabel)
  (cause : Cause)

theorem token?_relabel :
    (cause.relabel r).token? = cause.token?.map r.apply := by
  cases cause with
  | malformed complaint => cases complaint <;> rfl
  | _ => rfl

/- What is said of a token shows its kind and its text. -/
theorem unexpectedText_relabel
    (production : Production)
    (found : Token) :
    unexpectedText production (r.apply found) =
      unexpectedText production found := by
  unfold unexpectedText tagStanding
  rw [r.kind_apply, r.text_apply, found.tagName?_relabel]

/- What is said of a second value shows the first one. -/
theorem redefinedText_relabel
    (hGaps : r.KeepsGaps)
    (label : String)
    (prior : Option Fragment)
    (found : Token) :
    redefinedText label (prior.map (Fragment.relabel r))
        (r.apply found) =
      redefinedText label prior found := by
  have hShown :
      (prior.map (Fragment.relabel r)).bind
          Fragment.describe? =
        prior.bind Fragment.describe? := by
    cases prior with
    | none => rfl
    | some fragment => exact fragment.describe?_relabel hGaps
  unfold redefinedText
  rw [hShown, r.text_apply]

/- What is said of an omission shows a text at most. -/
theorem omissionText_relabel
    (group : Section)
    (missing : List Tag)
    (subject : Option Token) :
    group.omissionText missing (subject.map r.apply) =
      group.omissionText missing subject := by
  have hShown :
      (subject.map r.apply).map Token.text =
        subject.map Token.text := by
    cases subject with
    | none => rfl
    | some token => exact congrArg some (r.text_apply token)
  unfold Section.omissionText
  rw [hShown]

/- What is said of a complaint shows a text at most. -/
theorem complaintText_relabel
    (leaf : Leaf)
    (complaint : Malformed) :
    (complaint.relabel r).text leaf = complaint.text leaf := by
  unfold Malformed.relabel Malformed.text
  cases complaint <;> simp only [Relabel.text_apply]

/- What is said of a cause does not show places. -/
theorem text_relabel
    (hGaps : r.KeepsGaps)
    (production : Production) :
    (cause.relabel r).text production =
      cause.text production := by
  cases cause with
  | endOfInput last => rfl
  | unexpected found =>
      exact unexpectedText_relabel r production found
  | redefined label prior found =>
      exact redefinedText_relabel r hGaps label prior found
  | incomplete missing subject close =>
      cases production with
      | ofLeaf leaf => rfl
      | ofSection group =>
          exact omissionText_relabel r group missing subject
  | malformed complaint =>
      cases production with
      | ofSection group => rfl
      | ofLeaf leaf => exact complaintText_relabel r leaf complaint

end Cause

------------------------------------------------------------
-- Outcomes
------------------------------------------------------------

/-
  Two readings agree under a relabeling: both give a result, the
  second one that of the first carried over, or both stop for
  the same cause.
-/
inductive Relabel.Agrees
    {α : Type}
    (r : Relabel)
    (carry : α → α) :
    Except Fault α → Except Fault α → Prop
  | ok
      (result : α) :
      Agrees r carry (.ok result) (.ok (carry result))
  | rejected
      (production : Production)
      (path : List String)
      (cause : Cause) :
      Agrees r carry (production.reject path cause)
        (production.reject path (cause.relabel r))
  | lacking
      (lack : Lack) :
      Agrees r carry (.error (.lacking lack))
        (.error (.lacking lack))

namespace Section

variable
  (r : Relabel)
  (group : Section)

theorem read_relabel
    (token : Token) :
    group.read (r.apply token) = group.read token := by
  simp [read]

theorem prior?_relabel
    (draft : Draft)
    (child : Child) :
    group.prior? (draft.relabel r) child =
      (group.prior? draft child).map (Fragment.relabel r) := by
  unfold prior?
  split
  · rfl
  · exact draft.value?_relabel r group child.field

theorem missing_relabel
    (draft : Draft) :
    group.missing (draft.relabel r) = group.missing draft := by
  simp [missing, draft.value?_relabel r,
    draft.values_relabel r]

theorem subject_relabel
    (draft : Draft) :
    group.subject (draft.relabel r) =
      (group.subject draft).map (Option.map r.apply) := by
  have hValue :
      group.subjectField?.bind
          ((draft.relabel r).value? group) =
        (group.subjectField?.bind (draft.value? group)).map
          (Fragment.relabel r) := by
    cases group.subjectField? with
    | none => rfl
    | some field => exact draft.value?_relabel r group field
  unfold subject
  rw [hValue]
  cases group.subjectField?.bind (draft.value? group) with
  | none => rfl
  | some fragment =>
      have hName := fragment.nodeName_relabel r
      cases fragment with
      | token t => rfl
      | _ =>
          exact congrArg
            (fun name => Except.error (Lack.mk name "text"))
            hName

/- A section is closed, or stops for the same cause. -/
theorem close_relabel
    (path : List String)
    (draft : Draft)
    (token : Token) :
    r.Agrees (Fragment.relabel r)
      (group.close path draft token)
      (group.close path (draft.relabel r)
        (r.apply token)) := by
  unfold close
  rw [missing_relabel, finish_relabel, subject_relabel]
  cases hMissing : group.missing draft with
  | nil =>
      cases group.finish draft with
      | error lack => exact .lacking lack
      | ok fragment => exact .ok fragment
  | cons tag tags =>
      cases group.subject draft with
      | error lack => exact .lacking lack
      | ok subject =>
          exact .rejected (.ofSection group) path
            (.incomplete (tag :: tags) subject token)

end Section

------------------------------------------------------------
-- Leaves
------------------------------------------------------------

/- The place with the tokens around it relabeled. -/
def Cursor.relabel
    (r : Relabel)
    (cursor : Cursor) :
    Cursor where
  before := cursor.before.map r.apply
  rest := cursor.rest.map r.apply

/- What was read, with its tokens relabeled. -/
def Relabel.carryRead
    (r : Relabel) :
    Fragment × Cursor → Fragment × Cursor
  | (fragment, cursor) =>
      (fragment.relabel r, cursor.relabel r)

namespace Leaf

variable
  (r : Relabel)
  (leaf : Leaf)

/- A leaf that was built, or its complaint, relabeled. -/
def carryBuild :
    Except Malformed Fragment → Except Malformed Fragment
  | .error complaint => .error (complaint.relabel r)
  | .ok fragment => .ok (fragment.relabel r)

theorem buildSingle_relabel
    (kind : Kind)
    (first : Token)
    (rest : Code) :
    buildSingle kind (r.apply first) (rest.relabel r) =
      carryBuild r (buildSingle kind first rest) := by
  unfold buildSingle
  rw [r.kind_apply]
  split
  · rfl
  · cases rest <;> rfl

theorem checkRestriction_relabel
    (last : Token)
    (code : Code) :
    checkRestriction (r.apply last) (code.relabel r) =
      (checkRestriction last code).mapError
        (Malformed.relabel r) := by
  rcases code with _ | ⟨word, _ | ⟨second, rest⟩⟩
  · rfl
  · simp only [Code.relabel, List.map_cons, List.map_nil,
      checkRestriction, r.text_apply]
    split <;> rfl
  · simp only [Code.relabel, List.map_cons,
      checkRestriction, r.text_apply]
    split <;> rfl

theorem checkAfterPub_relabel
    (code : Code) :
    checkAfterPub (code.relabel r) =
      (checkAfterPub code).mapError (Malformed.relabel r) := by
  rcases code with _ | ⟨second, more⟩
  · rfl
  · have hDrop :
        (more.map r.apply).dropLast =
          Code.relabel r more.dropLast := by
      rw [← List.map_dropLast]
      rfl
    simp only [Code.relabel, List.map_cons, checkAfterPub,
      List.getLast?_map]
    cases more.getLast? with
    | none => rfl
    | some last =>
        simp only [Option.map_some, r.text_apply, hDrop]
        split
        · exact checkRestriction_relabel r last more.dropLast
        · rfl

theorem build_relabel
    (code : Code)
    (close : Token) :
    leaf.build (code.relabel r) (r.apply close) =
      carryBuild r (leaf.build code close) := by
  unfold build
  cases leaf.form with
  | anything => rfl
  | single kind label =>
      cases code with
      | nil => rfl
      | cons first rest =>
          exact buildSingle_relabel r kind first rest
  | visibility =>
      cases code with
      | nil => rfl
      | cons first rest =>
          have hRest := checkAfterPub_relabel r rest
          unfold Code.relabel at hRest
          simp only [Code.relabel, List.map_cons,
            buildVisibility, r.kind_apply, r.text_apply, hRest]
          split
          · cases checkAfterPub rest <;> rfl
          · rfl
  | path =>
      cases code with
      | nil => rfl
      | cons first rest =>
          simp only [Code.relabel, List.map_cons, buildPath,
            r.kind_apply, r.text_apply]
          split
          · cases rest <;> rfl
          · rfl
  | verbatim empty => cases code <;> rfl

/- A leaf is read from relabeled tokens alike. -/
theorem parse_relabel
    (path : List String)
    (code : Code)
    (before rest : List Token) :
    r.Agrees r.carryRead
      (leaf.parse path code before rest)
      (leaf.parse path (code.relabel r)
        (before.map r.apply) (rest.map r.apply)) := by
  induction rest generalizing code before with
  | nil =>
      rw [List.map_nil, parse_nil, parse_nil, List.head?_map]
      exact .rejected (.ofLeaf leaf) path
        (.endOfInput before.head?)
  | cons token rest ih =>
      have hContent :
          (r.apply token).isContent = token.isContent := by
        simp [Token.isContent]
      rw [List.map_cons, parse_cons, parse_cons,
        token.closes_relabel, hContent, build_relabel]
      split
      · cases leaf.build code token with
        | error complaint =>
            exact .rejected (.ofLeaf leaf) path
              (.malformed complaint)
        | ok fragment =>
            exact .ok (fragment, Cursor.mk (token :: before) rest)
      · split
        · have hLater := ih (code ++ [token]) (token :: before)
          rwa [Code.relabel, List.map_append] at hLater
        · exact .rejected (.ofLeaf leaf) path
            (.unexpected token)

end Leaf

------------------------------------------------------------
-- Sections
------------------------------------------------------------

namespace Relabel.Agrees

variable
  {α β : Type}
  {r : Relabel}
  {carry : α → α}
  {carryOn : β → β}

/- Readings that agree are made into readings that agree. -/
theorem map
    {left right : Except Fault α}
    {into onto : α → β}
    (hAgrees : r.Agrees carry left right)
    (hCarry :
      ∀ result, onto (carry result) = carryOn (into result)) :
    r.Agrees carryOn (left.map into) (right.map onto) := by
  cases hAgrees with
  | ok result =>
      have hOk :
          r.Agrees carryOn (.ok (into result))
            (.ok (carryOn (into result))) :=
        .ok (into result)
      rwa [← hCarry] at hOk
  | rejected production path cause =>
      exact .rejected production path cause
  | lacking lack => exact .lacking lack

/- Readings that agree go on to readings that agree. -/
theorem bind
    {left right : Except Fault α}
    {next after : α → Except Fault β}
    (hAgrees : r.Agrees carry left right)
    (hNext :
      ∀ result, left = .ok result →
        r.Agrees carryOn (next result)
          (after (carry result))) :
    r.Agrees carryOn (left.bind next) (right.bind after) := by
  cases hAgrees with
  | ok result => exact hNext result rfl
  | rejected production path cause =>
      exact .rejected production path cause
  | lacking lack => exact .lacking lack

end Relabel.Agrees

/- A production is read alike if sections are. -/
theorem Production.agrees_of_sections
    {r : Relabel}
    {production : Production}
    {path : List String}
    {before rest : List Token}
    (hSections :
      ∀ group : Section,
        r.Agrees r.carryRead
          (group.parse path .empty before rest)
          (group.parse path .empty (before.map r.apply)
            (rest.map r.apply))) :
    r.Agrees r.carryRead
      (production.parse path ⟨before, rest⟩)
      (production.parse path
        ⟨before.map r.apply, rest.map r.apply⟩) := by
  cases production with
  | ofLeaf leaf =>
      rw [parse_ofLeaf, parse_ofLeaf]
      exact leaf.parse_relabel r path [] before rest
  | ofSection group =>
      rw [parse_ofSection, parse_ofSection]
      exact hSections group

namespace Section

variable
  (r : Relabel)

/-
  A section is read from relabeled tokens alike. The induction
  is on the number of tokens, since a child takes any number.
-/
theorem parse_relabel
    (group : Section)
    (path : List String)
    (draft : Draft)
    (before rest : List Token) :
    r.Agrees r.carryRead
      (group.parse path draft before rest)
      (group.parse path (draft.relabel r)
        (before.map r.apply) (rest.map r.apply)) := by
  induction hLength : rest.length using Nat.strongRecOn
    generalizing group path draft before rest with
  | ind length ih =>
  cases rest with
  | nil =>
      rw [List.map_nil, parse_nil, parse_nil, List.head?_map]
      exact .rejected (.ofSection group) path
        (.endOfInput before.head?)
  | cons token rest =>
      subst hLength
      rw [List.map_cons, parse_cons, parse_cons, read_relabel]
      cases group.read token with
      | close =>
          apply (group.close_relabel r path draft token).map
          intro fragment
          rfl
      | opening tag child =>
          simp only [prior?_relabel]
          cases group.prior? draft child with
          | some prior =>
              exact .rejected (.ofSection group) path
                (.redefined child.label (some prior) token)
          | none =>
              have hChild :
                  r.Agrees r.carryRead
                    (child.production.parse (group.id :: path)
                      ⟨token :: before, rest⟩)
                    (child.production.parse (group.id :: path)
                      ⟨r.apply token :: before.map r.apply,
                        rest.map r.apply⟩) := by
                apply Production.agrees_of_sections
                intro inner
                exact ih rest.length (Nat.lt_succ_self _) inner
                  (group.id :: path) .empty (token :: before)
                  rest rfl
              apply hChild.bind
              rintro ⟨fragment, cursor⟩ hInner
              have hWithin :
                  cursor.rest.length < rest.length :=
                Yield.within_of_toPair hInner
              have hLater :=
                ih cursor.rest.length
                  (Nat.lt_succ_of_lt hWithin) group path
                  (draft.add (.child tag fragment))
                  cursor.before cursor.rest rfl
              rwa [draft.relabel_add] at hLater
      | mark tag =>
          simp only [draft.marked_relabel]
          split
          · exact .rejected (.ofSection group) path
              (.redefined tag.text none token)
          · have hLater :=
              ih rest.length (Nat.lt_succ_self _) group path
                (draft.add (.mark tag)) (token :: before) rest
                rfl
            rwa [draft.relabel_add] at hLater
      | stray =>
          exact .rejected (.ofSection group) path
            (.unexpected token)

end Section

/- A production is read from relabeled tokens alike. -/
theorem Production.parse_relabel
    (r : Relabel)
    (production : Production)
    (path : List String)
    (cursor : Cursor) :
    r.Agrees r.carryRead (production.parse path cursor)
      (production.parse path (cursor.relabel r)) := by
  apply agrees_of_sections
  intro group
  exact group.parse_relabel r path .empty cursor.before
    cursor.rest

end TraitMarkup
