import Mathlib.Tactic.MkIffOfInductiveProp
import TraitMarkup.Proofs.Acceptance

/-
  Well-formed declarations.

  A declaration is well formed when its tokens have the kinds
  that their places ask for and its code could stand between
  tags. Everything that is read is well formed: each leaf and
  each section admits only such fragments, and a section hands
  to its fields what its children admit.

  Key definitions include:
    * `Code.IsSpan`
    * `TraitBound.WellFormed`, `Bound.WellFormed`
    * `GenericParam.rank`, `GenericParam.WellFormed`
    * `WhereClause.WellFormed`
    * `AssocFn.WellFormed`
    * `TraitDecl.WellFormed`
    * `Production.Admits`, `Field.Admits`

  Main declarations:
    * `Section.admits_of_forms`
    * `Production.admits_of_derives`
    * `TraitDecl.wellFormed_of_ofTokens`
-/

namespace TraitMarkup

------------------------------------------------------------
-- Code Between Tags
------------------------------------------------------------

namespace Code

instance
    (code : Code) :
    Decidable code.IsContent := by
  unfold IsContent
  infer_instance

/- Code that may stand between tags, and is there. -/
def IsSpan
    (code : Code) : Prop :=
  code.IsContent ∧ code ≠ []

instance
    (code : Code) :
    Decidable code.IsSpan := by
  unfold IsSpan
  infer_instance

instance
    (code : Code) :
    Decidable code.StartsRelaxed :=
  match code with
  | [] => isFalse (by rintro ⟨mark, rest, hCode, _⟩; cases hCode)
  | mark :: rest =>
      decidable_of_iff
        (mark.kind = .punct ∧ mark.text = "?")
        (by simp [StartsRelaxed])

instance
    (code : Code) :
    Decidable code.IsVisibility :=
  match code with
  | [] => isFalse (by intro hCode; cases hCode)
  | first :: rest =>
      decidable_of_iff
        (Leaf.buildVisibility first rest =
          .ok (.code (first :: rest)))
        (by simp [Leaf.buildVisibility_eq_ok_iff])

end Code

------------------------------------------------------------
-- Bounds
------------------------------------------------------------

/-
  A path is there. One that is not relaxed does not start with
  a question mark, or it would be read as a relaxed one.
-/
def TraitBound.WellFormed
    (bound : TraitBound) : Prop :=
  bound.path.IsSpan ∧
    (bound.relaxed = false → ¬ bound.path.StartsRelaxed)

instance
    (bound : TraitBound) :
    Decidable bound.WellFormed := by
  unfold TraitBound.WellFormed
  infer_instance

/- Every token of the list is a lifetime. -/
def Code.AreLifetimes
    (tokens : List Token) : Prop :=
  ∀ token ∈ tokens, token.kind = .lifetime

instance
    (tokens : List Token) :
    Decidable (Code.AreLifetimes tokens) := by
  unfold Code.AreLifetimes
  infer_instance

/- A bound of a type is well formed. -/
def Bound.WellFormed : Bound → Prop
  | trait bound => bound.WellFormed
  | lifetime name => name.kind = .lifetime
  | forAll lifetimes bound =>
      Code.AreLifetimes lifetimes ∧ lifetimes ≠ [] ∧
        bound.WellFormed

instance
    (bound : Bound) :
    Decidable bound.WellFormed := by
  cases bound <;>
    unfold Bound.WellFormed <;>
    infer_instance

------------------------------------------------------------
-- Generic Parameters
------------------------------------------------------------

namespace GenericParam

/- Lifetimes come first, then types, then constants. -/
def rank : GenericParam → Nat
  | lifetime _ _ => 0
  | type _ _ => 1
  | const _ _ => 2

/- A generic parameter is well formed. -/
def WellFormed : GenericParam → Prop
  | lifetime name bounds =>
      name.kind = .lifetime ∧ Code.AreLifetimes bounds
  | type name bounds =>
      name.kind = .ident ∧ ∀ bound ∈ bounds, bound.WellFormed
  | const name valueType =>
      name.kind = .ident ∧ valueType.IsSpan

instance
    (param : GenericParam) :
    Decidable param.WellFormed := by
  cases param <;>
    unfold WellFormed <;>
    infer_instance

/- Well-formed parameters in the order of their ranks. -/
def AreWellFormed
    (params : List GenericParam) : Prop :=
  (∀ param ∈ params, param.WellFormed) ∧
    params.Pairwise (fun left right => left.rank ≤ right.rank)

instance
    (params : List GenericParam) :
    Decidable (AreWellFormed params) := by
  unfold AreWellFormed
  infer_instance

end GenericParam

/- Parameters and requirements are well formed. -/
def Generics.WellFormed
    (generics : Generics) : Prop :=
  GenericParam.AreWellFormed generics.params ∧
    ∀ bound ∈ generics.requirements, bound.WellFormed

------------------------------------------------------------
-- Where Clauses
------------------------------------------------------------

/- A clause on a type is well formed. -/
def TypeClause.WellFormed
    (clause : TypeClause) : Prop :=
  clause.type.IsSpan ∧
    ∀ bound ∈ clause.bounds, bound.WellFormed

instance
    (clause : TypeClause) :
    Decidable clause.WellFormed := by
  unfold TypeClause.WellFormed
  infer_instance

/- A where clause is well formed. -/
def WhereClause.WellFormed : WhereClause → Prop
  | lifetime name bounds =>
      name.kind = .lifetime ∧ Code.AreLifetimes bounds ∧
        bounds ≠ []
  | type clause => clause.WellFormed
  | forAll lifetimes clause =>
      Code.AreLifetimes lifetimes ∧ lifetimes ≠ [] ∧
        clause.WellFormed

instance
    (clause : WhereClause) :
    Decidable clause.WellFormed := by
  cases clause <;>
    unfold WhereClause.WellFormed <;>
    infer_instance

------------------------------------------------------------
-- Associated Items
------------------------------------------------------------

/- An associated type is well formed. -/
def AssocType.WellFormed
    (item : AssocType) : Prop :=
  item.name.kind = .ident ∧
    GenericParam.AreWellFormed item.params ∧
    (∀ bound ∈ item.bounds, bound.WellFormed) ∧
    (∀ clause ∈ item.clauses, clause.WellFormed)

instance
    (item : AssocType) :
    Decidable item.WellFormed := by
  unfold AssocType.WellFormed
  infer_instance

/- An associated constant is well formed. -/
def AssocConst.WellFormed
    (item : AssocConst) : Prop :=
  item.name.kind = .ident ∧
    item.type.IsSpan ∧
    (∀ code ∈ item.value, code.IsSpan)

instance
    (item : AssocConst) :
    Decidable item.WellFormed := by
  unfold AssocConst.WellFormed
  infer_instance

/- The code is a single name. -/
def Code.IsName : Code → Prop
  | [name] => name.kind = .ident
  | _ => False

instance
    (code : Code) :
    Decidable code.IsName := by
  unfold Code.IsName
  split <;> infer_instance

/- An argument is well formed. Only a pattern may be long. -/
def FnParam.WellFormed
    (param : FnParam) : Prop :=
  param.arg.IsSpan ∧
    param.type.IsSpan ∧
    (param.isPattern = false → param.arg.IsName)

instance
    (param : FnParam) :
    Decidable param.WellFormed := by
  unfold FnParam.WellFormed
  infer_instance

/-
  An associated function is well formed. Its body is the one
  code that may be there and be empty.
-/
@[mk_iff]
structure AssocFn.WellFormed
    (item : AssocFn) : Prop where
  name : item.name.kind = .ident
  abi : ∀ abi ∈ item.qualifiers.abi, abi.kind = .string
  params : GenericParam.AreWellFormed item.params
  args : ∀ arg ∈ item.args, arg.WellFormed
  ret : ∀ code ∈ item.ret, code.IsSpan
  clauses : ∀ clause ∈ item.clauses, clause.WellFormed
  body : ∀ code ∈ item.body, code.IsContent

instance
    (item : AssocFn) :
    Decidable item.WellFormed :=
  decidable_of_iff _ (AssocFn.wellFormed_iff item).symm

------------------------------------------------------------
-- Trait Declarations
------------------------------------------------------------

/- A visibility is well formed. -/
def Code.IsWellFormedVisibility
    (code : Code) : Prop :=
  code.IsContent ∧ code.IsVisibility

instance
    (code : Code) :
    Decidable code.IsWellFormedVisibility := by
  unfold Code.IsWellFormedVisibility
  infer_instance

/- A declaration is well formed. -/
@[mk_iff]
structure TraitDecl.WellFormed
    (decl : TraitDecl) : Prop where
  name : decl.name.kind = .ident
  vis : ∀ code ∈ decl.vis, code.IsWellFormedVisibility
  params : GenericParam.AreWellFormed decl.params
  requirements :
    ∀ bound ∈ decl.requirements, bound.WellFormed
  clauses : ∀ clause ∈ decl.clauses, clause.WellFormed
  types : ∀ item ∈ decl.types, item.WellFormed
  consts : ∀ item ∈ decl.consts, item.WellFormed
  fns : ∀ item ∈ decl.fns, item.WellFormed

instance
    (decl : TraitDecl) :
    Decidable decl.WellFormed :=
  decidable_of_iff _ (TraitDecl.wellFormed_iff decl).symm

------------------------------------------------------------
-- What Productions And Fields Admit
------------------------------------------------------------

namespace Fragment

variable {α : Type}

/- The fragment is of one form, and its value is as asked. -/
def Has
    (view : Fragment → Option α)
    (asked : α → Prop)
    (fragment : Fragment) : Prop :=
  ∃ value, view fragment = some value ∧ asked value

/- What is asked may be weakened. -/
theorem Has.mono
    {view : Fragment → Option α}
    {asked weaker : α → Prop}
    (hWeaker : ∀ value, asked value → weaker value)
    {fragment : Fragment}
    (hHas : fragment.Has view asked) :
    fragment.Has view weaker := by
  rcases hHas with ⟨value, hSeen, hAsked⟩
  exact ⟨value, hSeen, hWeaker value hAsked⟩

/- A fragment of a form has what its value has. -/
theorem Views.has_iff
    {view : Fragment → Option α}
    {form : α → Fragment}
    (hViews : Views view form)
    {asked : α → Prop}
    {value : α} :
    (form value).Has view asked ↔ asked value := by
  have hSeen : view (form value) = some value :=
    (hViews.iff (form value) value).mpr rfl
  constructor
  · rintro ⟨other, hOther, hAsked⟩
    rw [hSeen] at hOther
    cases hOther
    exact hAsked
  · intro hAsked
    exact ⟨value, hSeen, hAsked⟩

end Fragment

namespace Leaf

open Fragment

/- The fragment is well formed, as the leaf has it. -/
def Admits
    (leaf : Leaf) :
    Fragment → Prop :=
  match leaf with
  | .name => Has token? (fun token => token.kind = .ident)
  | .lifetime | .lifetimeName | .lifetimeBound =>
      Has token? (fun token => token.kind = .lifetime)
  | .abi => Has token? (fun token => token.kind = .string)
  | .vis => Has code? Code.IsWellFormedVisibility
  | .type | .ret | .defaultValue | .pat =>
      Has code? Code.IsSpan
  | .rust => Has code? Code.IsContent
  | .req | .typeBound =>
      Has traitBound? TraitBound.WellFormed

end Leaf

namespace Section

open Fragment

/- The fragment is well formed, as the section has it. -/
def Admits
    (group : Section) :
    Fragment → Prop :=
  match group with
  | .trait => Has trait? TraitDecl.WellFormed
  | .bounds | .gparams => Has generics? Generics.WellFormed
  | .lifetimeParam =>
      Has param? (fun param => param.WellFormed ∧ param.rank = 0)
  | .typeParam =>
      Has param? (fun param => param.WellFormed ∧ param.rank = 1)
  | .constParam =>
      Has param? (fun param => param.WellFormed ∧ param.rank = 2)
  | .forBound => Has bound? Bound.WellFormed
  | .clauses =>
      Has clauses? (fun clauses =>
        ∀ clause ∈ clauses, clause.WellFormed)
  | .lifetimeClause | .forClause =>
      Has clause? WhereClause.WellFormed
  | .typeClause => Has typeClause? TypeClause.WellFormed
  | .assocType => Has assocType? AssocType.WellFormed
  | .assocConst => Has assocConst? AssocConst.WellFormed
  | .param => Has arg? FnParam.WellFormed
  | .params =>
      Has args? (fun args => ∀ arg ∈ args, arg.WellFormed)
  | .assocFn => Has assocFn? AssocFn.WellFormed

end Section

/- The fragment is well formed, as the production has it. -/
def Production.Admits : Production → Fragment → Prop
  | ofLeaf leaf => leaf.Admits
  | ofSection group => group.Admits

namespace Field

open Fragment

/- The value is well formed, as the field is read. -/
def Admits
    (group : Section)
    (field : Field) :
    Fragment → Prop :=
  match field, group with
  | .name, .lifetimeParam | .lifetime, _
  | .bounds, .lifetimeParam | .bounds, .lifetimeClause
  | .lifetimes, .forBound | .lifetimes, .forClause =>
      Has token? (fun token => token.kind = .lifetime)
  | .name, _ => Has token? (fun token => token.kind = .ident)
  | .abi, _ => Has token? (fun token => token.kind = .string)
  | .vis, _ => Has code? Code.IsWellFormedVisibility
  | .type, _ | .value, _ | .arg, _ | .ret, _ =>
      Has code? Code.IsSpan
  | .body, _ => Has code? Code.IsContent
  | .bounds, .trait | .bounds, .assocType | .gparams, _ =>
      Has generics? Generics.WellFormed
  | .bounds, _ => Has bound? Bound.WellFormed
  | .clauses, _ =>
      Has clauses? (fun clauses =>
        ∀ clause ∈ clauses, clause.WellFormed)
  | .types, .trait => Has assocType? AssocType.WellFormed
  | .consts, .trait => Has assocConst? AssocConst.WellFormed
  | .fns, _ => Has assocFn? AssocFn.WellFormed
  | .lifetimes, _ =>
      Has param? (fun param => param.WellFormed ∧ param.rank = 0)
  | .types, _ =>
      Has param? (fun param => param.WellFormed ∧ param.rank = 1)
  | .consts, _ =>
      Has param? (fun param => param.WellFormed ∧ param.rank = 2)
  | .reqs, _ | .bound, _ =>
      Has traitBound? TraitBound.WellFormed
  | .clauseList, _ => Has clause? WhereClause.WellFormed
  | .clause, _ => Has typeClause? TypeClause.WellFormed
  | .params, .params => Has arg? FnParam.WellFormed
  | .params, _ =>
      Has args? (fun args => ∀ arg ∈ args, arg.WellFormed)
  | .unsafety, _ | .isPattern, _ => fun _ => True

end Field

------------------------------------------------------------
-- From Children To Fields
------------------------------------------------------------

namespace Fragment

/- A plain bound is a bound. -/
theorem Has.bound
    {fragment : Fragment}
    (hHas : fragment.Has traitBound? TraitBound.WellFormed) :
    fragment.Has bound? Bound.WellFormed := by
  rcases hHas with ⟨bound, hSeen, hBound⟩
  rw [(views_traitBound.iff fragment bound).mp hSeen]
  exact ⟨.trait bound, rfl, hBound⟩

/- A clause on a type is a clause. -/
theorem Has.clause
    {fragment : Fragment}
    (hHas : fragment.Has typeClause? TypeClause.WellFormed) :
    fragment.Has clause? WhereClause.WellFormed := by
  rcases hHas with ⟨clause, hSeen, hClause⟩
  rw [(views_typeClause.iff fragment clause).mp hSeen]
  exact ⟨.type clause, rfl, hClause⟩

end Fragment

namespace Child

open Fragment

/- A lifetime that is taken in as a bound. -/
theorem has_adapt_lifetime
    {child : Child}
    (hTaken : child.adaptation = .lifetimeAsBound)
    {fragment : Fragment}
    (hHas :
      fragment.Has token? (fun token =>
        token.kind = .lifetime)) :
    (child.adapt fragment).Has bound? Bound.WellFormed := by
  rcases hHas with ⟨token, hSeen, hKind⟩
  have hToken := (views_token.iff fragment token).mp hSeen
  have hAdapt :
      child.adapt fragment = .bound (.lifetime token) := by
    simp only [adapt, hTaken, hToken]
  rw [hAdapt]
  exact ⟨.lifetime token, rfl, hKind⟩

/- A name is code of one token. -/
theorem has_adapt_name
    {child : Child}
    (hTaken : child.adaptation = .nameAsArg)
    {fragment : Fragment}
    (hHas :
      fragment.Has token? (fun token =>
        token.kind = .ident)) :
    (child.adapt fragment).Has code? (fun code =>
      code.IsSpan ∧ code.IsName) := by
  rcases hHas with ⟨token, hSeen, hKind⟩
  have hToken := (views_token.iff fragment token).mp hSeen
  have hAdapt : child.adapt fragment = .code [token] := by
    simp only [adapt, hTaken, hToken]
  rw [hAdapt]
  refine ⟨[token], rfl, ⟨?_, List.cons_ne_nil token []⟩, hKind⟩
  intro other hOther
  rw [List.mem_singleton.mp hOther, hKind]
  exact ⟨Kind.noConfusion, Kind.noConfusion⟩

end Child

namespace Section

open Fragment

/- What a child admits, its field admits. -/
theorem admits_of_child?
    {group : Section}
    {tag : Tag}
    {child : Child}
    {fragment : Fragment}
    (hChild : group.child? tag = some child)
    (hAdmits : child.production.Admits fragment) :
    child.field.Admits group (child.adapt fragment) := by
  cases group <;> cases tag <;> cases hChild <;>
    first
    | exact hAdmits
    | exact hAdmits.bound
    | exact hAdmits.clause
    | exact Child.has_adapt_lifetime rfl hAdmits
    | skip
  case param.name.refl =>
    exact Has.mono (fun code hCode => hCode.1)
      (Child.has_adapt_name rfl hAdmits)

/- Every child of the draft is admitted by its production. -/
def AdmitsChildren
    (group : Section)
    (draft : Draft) : Prop :=
  ∀ tag fragment,
    Entry.child tag fragment ∈ draft.entries →
      ∃ child, group.child? tag = some child ∧
        child.production.Admits fragment

/- Every value of such a draft is admitted by its field. -/
theorem AdmitsChildren.admits
    {group : Section}
    {draft : Draft}
    (hChildren : group.AdmitsChildren draft)
    {field : Field}
    {value : Fragment}
    (hValue : value ∈ draft.values group field) :
    field.Admits group value := by
  rcases List.mem_filterMap.mp hValue with
    ⟨entry, hEntry, hGiven⟩
  cases entry with
  | mark tag => cases hGiven
  | child tag fragment =>
      rcases hChildren tag fragment hEntry with
        ⟨child, hChild, hAdmits⟩
      simp only [Entry.value?, hChild] at hGiven
      split at hGiven
      · rename_i hField
        cases hGiven
        rw [← hField]
        exact admits_of_child? hChild hAdmits
      · cases hGiven

namespace AdmitsChildren

variable {α : Type}
variable {group : Section}
variable {draft : Draft}
variable {field : Field}
variable {view : Fragment → Option α}
variable {form : α → Fragment}
variable {asked : α → Prop}

/- The values that a field lists are as asked. -/
theorem all
    (hChildren : group.AdmitsChildren draft)
    {values : List α}
    (hValues : draft.HasAll group field form values)
    (hViews : Views view form)
    (hAsked : field.Admits group = Has view asked) :
    ∀ value ∈ values, asked value := by
  intro value hValue
  have hMember : form value ∈ draft.values group field := by
    rw [hValues]
    exact List.mem_map_of_mem hValue
  have hAdmits := hChildren.admits hMember
  rw [hAsked] at hAdmits
  exact hViews.has_iff.mp hAdmits

/- The value that a field may have is as asked. -/
theorem atMostOne
    (hChildren : group.AdmitsChildren draft)
    {value : Option α}
    (hValue : draft.HasAtMostOne group field form value)
    (hViews : Views view form)
    (hAsked : field.Admits group = Has view asked) :
    ∀ given ∈ value, asked given := by
  have hValues :
      draft.HasAll group field form value.toList := by
    rw [Draft.HasAll, hValue]
    cases value <;> rfl
  intro given hGiven
  exact hChildren.all hValues hViews hAsked given
    (Option.mem_toList.mpr hGiven)

/- The value that a field has is as asked. -/
theorem one
    (hChildren : group.AdmitsChildren draft)
    {value : α}
    (hValue : draft.HasOne group field form value)
    (hViews : Views view form)
    (hAsked : field.Admits group = Has view asked) :
    asked value :=
  hChildren.atMostOne hValue.atMostOne hViews hAsked value rfl

end AdmitsChildren

end Section

------------------------------------------------------------
-- From Fields To Sections
------------------------------------------------------------

namespace GenericParam

/- Parameters of one rank after the other are in order. -/
theorem areWellFormed_append
    {lifetimes types consts : List GenericParam}
    (hLifetimes :
      ∀ param ∈ lifetimes, param.WellFormed ∧ param.rank = 0)
    (hTypes :
      ∀ param ∈ types, param.WellFormed ∧ param.rank = 1)
    (hConsts :
      ∀ param ∈ consts, param.WellFormed ∧ param.rank = 2) :
    AreWellFormed (lifetimes ++ types ++ consts) := by
  constructor
  · intro param hParam
    rcases List.mem_append.mp hParam with hFirst | hConst
    · rcases List.mem_append.mp hFirst with hLifetime | hType
      · exact (hLifetimes param hLifetime).1
      · exact (hTypes param hType).1
    · exact (hConsts param hConst).1
  · have hSame :
        ∀ {params : List GenericParam} {place : Nat},
          (∀ param ∈ params, param.rank = place) →
            params.Pairwise
              (fun left right => left.rank ≤ right.rank) := by
      intro params place hRank
      apply List.pairwise_of_forall_mem_list
      intro left hLeft right hRight
      exact Nat.le_of_eq
        ((hRank left hLeft).trans (hRank right hRight).symm)
    refine List.pairwise_append.mpr
      ⟨List.pairwise_append.mpr
        ⟨hSame fun param hParam => (hLifetimes param hParam).2,
          hSame fun param hParam => (hTypes param hParam).2,
          ?_⟩,
        hSame fun param hParam => (hConsts param hParam).2,
        ?_⟩
    · intro left hLeft right hRight
      rw [(hLifetimes left hLeft).2, (hTypes right hRight).2]
      exact Nat.zero_le 1
    · intro left hLeft right hRight
      rw [(hConsts right hRight).2]
      rcases List.mem_append.mp hLeft with hLifetime | hType
      · rw [(hLifetimes left hLifetime).2]
        exact Nat.zero_le 2
      · rw [(hTypes left hType).2]
        exact Nat.le_succ 1

end GenericParam

/- Generics that are not given are well formed. -/
theorem Generics.wellFormed_getD
    {generics : Option Generics}
    (hGenerics : ∀ given ∈ generics, given.WellFormed) :
    (generics.getD {}).WellFormed := by
  cases generics with
  | none =>
      refine ⟨⟨?_, List.Pairwise.nil⟩, ?_⟩
      · intro param hParam
        cases hParam
      · intro bound hBound
        cases hBound
  | some given => exact hGenerics given rfl

/- A list that is not given holds nothing amiss. -/
theorem forall_mem_getD_nil
    {α : Type}
    {asked : α → Prop}
    {values : Option (List α)}
    (hValues :
      ∀ given ∈ values, ∀ value ∈ given, asked value) :
    ∀ value ∈ values.getD [], asked value := by
  intro value hValue
  cases values with
  | none => cases hValue
  | some given => exact hValues given rfl value hValue

namespace Section

open Fragment

/- The argument of a parameter without a pattern is a name. -/
theorem isName_of_admitsChildren
    {draft : Draft}
    (hChildren : param.AdmitsChildren draft)
    {code : Code}
    (hArg : draft.HasOne .param .arg .code code)
    (hNoPattern :
      ∀ fragment, Entry.child .pat fragment ∉ draft.entries) :
    code.IsName := by
  have hMember :
      Fragment.code code ∈ draft.values .param .arg := by
    rw [hArg]
    exact List.mem_singleton_self _
  rcases List.mem_filterMap.mp hMember with
    ⟨entry, hEntry, hGiven⟩
  cases entry with
  | mark tag => cases hGiven
  | child tag fragment =>
      rcases hChildren tag fragment hEntry with
        ⟨child, hChild, hAdmits⟩
      simp only [Entry.value?, hChild] at hGiven
      split at hGiven
      · rename_i hField
        cases tag <;> cases hChild <;> try cases hField
        case isTrue.name.refl.refl =>
          have hHas :
              (Fragment.code code).Has code? (fun code =>
                code.IsSpan ∧ code.IsName) := by
            rw [← Option.some.inj hGiven]
            exact Child.has_adapt_name rfl hAdmits
          exact (views_code.has_iff.mp hHas).2
        case isTrue.pat.refl.refl =>
          exact absurd hEntry (hNoPattern fragment)
      · cases hGiven

/- A section of admitted children forms what it admits. -/
theorem admits_of_forms
    {group : Section}
    {draft : Draft}
    {fragment : Fragment}
    (hChildren : group.AdmitsChildren draft)
    (hForms : group.Forms draft fragment) :
    group.Admits fragment := by
  cases hForms with
  | @trait _ decl _ _ hName hVis hUnsafe hGenerics hParams
      hRequirements hClauses hWhere hTypes hConsts hFns =>
      have hKind := hChildren.one hName views_token rfl
      have hAll :=
        Generics.wellFormed_getD
          (hChildren.atMostOne hGenerics views_generics rfl)
      refine ⟨decl, rfl, ?_⟩
      exact {
        name := hKind
        vis := hChildren.atMostOne hVis views_code rfl
        params := by
          rw [hParams]
          exact hAll.1
        requirements := by
          rw [hRequirements]
          exact hAll.2
        clauses := by
          rw [hWhere]
          exact forall_mem_getD_nil
            (hChildren.atMostOne hClauses views_clauses rfl)
        types := hChildren.all hTypes views_assocType rfl
        consts := hChildren.all hConsts views_assocConst rfl
        fns := hChildren.all hFns views_assocFn rfl }
  | bounds hLifetimes hTypes hConsts hRequirements =>
      exact ⟨_, rfl,
        GenericParam.areWellFormed_append
          (hChildren.all hLifetimes views_param rfl)
          (hChildren.all hTypes views_param rfl)
          (hChildren.all hConsts views_param rfl),
        hChildren.all hRequirements views_traitBound rfl⟩
  | gparams hLifetimes hTypes hConsts hSome =>
      refine ⟨_, rfl,
        GenericParam.areWellFormed_append
          (hChildren.all hLifetimes views_param rfl)
          (hChildren.all hTypes views_param rfl)
          (hChildren.all hConsts views_param rfl), ?_⟩
      intro bound hBound
      cases hBound
  | lifetimeParam hName hBounds =>
      have hKind := hChildren.one hName views_token rfl
      exact ⟨_, rfl,
        ⟨hKind,
          hChildren.all hBounds views_token rfl⟩, rfl⟩
  | typeParam hName hBounds =>
      have hKind := hChildren.one hName views_token rfl
      exact ⟨_, rfl,
        ⟨hKind,
          hChildren.all hBounds views_bound rfl⟩, rfl⟩
  | constParam hName hType =>
      have hKind := hChildren.one hName views_token rfl
      exact ⟨_, rfl,
        ⟨hKind,
          hChildren.one hType views_code rfl⟩, rfl⟩
  | forBound hLifetimes hSome hBound =>
      exact ⟨_, rfl,
        hChildren.all hLifetimes views_token rfl, hSome,
        hChildren.one hBound views_traitBound rfl⟩
  | clauses hClauses hSome =>
      exact ⟨_, rfl, hChildren.all hClauses views_clause rfl⟩
  | lifetimeClause hName hBounds hSome =>
      have hKind := hChildren.one hName views_token rfl
      exact ⟨_, rfl, hKind,
        hChildren.all hBounds views_token rfl, hSome⟩
  | typeClause hType hBounds =>
      exact ⟨_, rfl, hChildren.one hType views_code rfl,
        hChildren.all hBounds views_bound rfl⟩
  | forClause hLifetimes hSome hClause =>
      exact ⟨_, rfl,
        hChildren.all hLifetimes views_token rfl, hSome,
        hChildren.one hClause views_typeClause rfl⟩
  | @assocType _ item _ _ hName hGenerics hParams hBounds
      hClauses hWhere =>
      have hKind := hChildren.one hName views_token rfl
      have hAll :=
        Generics.wellFormed_getD
          (hChildren.atMostOne hGenerics views_generics rfl)
      refine ⟨item, rfl, hKind, ?_, ?_, ?_⟩
      · rw [hParams]
        exact hAll.1
      · rw [hBounds]
        exact hAll.2
      · rw [hWhere]
        exact forall_mem_getD_nil
          (hChildren.atMostOne hClauses views_clauses rfl)
  | @assocConst _ item hName hType hValue =>
      have hKind := hChildren.one hName views_token rfl
      exact ⟨item, rfl, hKind,
        hChildren.one hType views_code rfl,
        hChildren.atMostOne hValue views_code rfl⟩
  | @param _ item hArg hType hPattern =>
      refine ⟨item, rfl, hChildren.one hArg views_code rfl,
        hChildren.one hType views_code rfl, ?_⟩
      intro hName
      apply isName_of_admitsChildren hChildren hArg
      intro fragment hEntry
      rw [hPattern.mpr ⟨fragment, hEntry⟩] at hName
      cases hName
  | params hArgs =>
      exact ⟨_, rfl, hChildren.all hArgs views_arg rfl⟩
  | @assocFn _ item _ _ _ hName hUnsafe hAbi hGenerics
      hParams hArgs hItemArgs hRet hClauses hWhere hBody =>
      have hKind := hChildren.one hName views_token rfl
      have hAll :=
        Generics.wellFormed_getD
          (hChildren.atMostOne hGenerics views_generics rfl)
      refine ⟨item, rfl, ?_⟩
      exact {
        name := hKind
        abi := hChildren.atMostOne hAbi views_token rfl
        params := by
          rw [hParams]
          exact hAll.1
        args := by
          rw [hItemArgs]
          exact forall_mem_getD_nil
            (hChildren.atMostOne hArgs views_args rfl)
        ret := hChildren.atMostOne hRet views_code rfl
        clauses := by
          rw [hWhere]
          exact forall_mem_getD_nil
            (hChildren.atMostOne hClauses views_clauses rfl)
        body := hChildren.atMostOne hBody views_code rfl }

end Section

------------------------------------------------------------
-- What Is Read Is Well Formed
------------------------------------------------------------

namespace Code

/- A path that spells a bound is a well-formed bound. -/
theorem SpellsBound.wellFormed
    {code : Code}
    {bound : TraitBound}
    (hSpells : code.SpellsBound bound)
    (hContent : code.IsContent) :
    bound.WellFormed := by
  cases hSpells with
  | plain hPath hPlain =>
      exact ⟨⟨hContent, hPath⟩, fun _ => hPlain⟩
  | relaxed hMark hPath =>
      refine ⟨⟨?_, hPath⟩, ?_⟩
      · intro token hToken
        exact hContent token (List.mem_cons_of_mem _ hToken)
      · intro hRelaxed
        cases hRelaxed

end Code

/- A leaf admits what it holds. -/
theorem Leaf.admits_of_holds
    {leaf : Leaf}
    {code : Code}
    {fragment : Fragment}
    (hContent : code.IsContent)
    (hHolds : leaf.Holds code fragment) :
    leaf.Admits fragment := by
  cases hHolds with
  | name hKind | lifetime hKind | lifetimeName hKind
  | lifetimeBound hKind | abi hKind =>
      exact ⟨_, rfl, hKind⟩
  | vis hCode => exact ⟨_, rfl, hContent, hCode⟩
  | type hCode | ret hCode | defaultValue hCode | pat hCode =>
      exact ⟨_, rfl, hContent, hCode⟩
  | rust => exact ⟨_, rfl, hContent⟩
  | req hCode | typeBound hCode =>
      exact ⟨_, rfl, hCode.wellFormed hContent⟩

/- A production admits what derives from it. -/
theorem Production.admits_of_derives
    {production : Production}
    {tokens : List Token}
    {fragment : Fragment}
    (hDerives : production.Derives tokens fragment) :
    production.Admits fragment := by
  induction hDerives with
  | leaf hContent hHolds hClose =>
      exact Leaf.admits_of_holds hContent hHolds
  | @group group pieces close fragment hStarts hInside hOnce
      hForms hClose ih =>
      refine Section.admits_of_forms ?_ hForms
      intro tag part hEntry
      rcases List.mem_map.mp hEntry with
        ⟨piece, hPiece, hEqual⟩
      cases piece with
      | mark token other => cases hEqual
      | child opener inside other fragment =>
          cases hEqual
          rcases Option.isSome_iff_exists.mp
            (hStarts _ hPiece).2 with ⟨child, hChild⟩
          exact ⟨child, hChild,
            ih opener inside tag part child hPiece hChild⟩

namespace TraitDecl

/- A declaration that is read is well formed. -/
theorem wellFormed_of_ofTokens
    {tokens : List Token}
    {decl : TraitDecl}
    (hTokens : ofTokens tokens = .ok decl) :
    decl.WellFormed := by
  rcases derivedFrom_of_ofTokens hTokens with
    ⟨opener, inside, _, _, hDerives⟩
  rcases Production.admits_of_derives hDerives with
    ⟨other, hSeen, hWellFormed⟩
  cases hSeen
  exact hWellFormed

end TraitDecl

end TraitMarkup
