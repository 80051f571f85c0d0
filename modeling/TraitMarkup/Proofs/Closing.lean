import Mathlib.Data.List.Basic
import TraitMarkup.Machine.Step
import TraitMarkup.Proofs.Grammar

/-
  Closing a leaf or a section, against the grammar.

  A leaf is built from exactly the code that it holds. A
  section whose children have the shapes of their productions,
  and whose single fields are given once, is closed exactly
  when it forms a fragment.

  Key definitions include:
    * `Fragment.Views`
    * `Section.IsTyped`
    * `Field.fits`

  Main declarations:
    * `Leaf.build_eq_ok_iff`
    * `Section.close_of_forms`
    * `Section.exists_forms`
    * `Section.close_eq_ok_iff`
-/

namespace TraitMarkup

------------------------------------------------------------
-- Leaves
------------------------------------------------------------

namespace Leaf

/- A restriction is a known word, or `in` and a path. -/
theorem checkRestriction_eq_ok_iff
    {last : Token}
    {code : Code} :
    checkRestriction last code = .ok () ↔
      (∃ scope, code = [scope] ∧
        scope.text ∈ restrictedWords) ∨
      (∃ keyword path, code = keyword :: path ∧
        keyword.text = "in" ∧ path ≠ []) := by
  rcases code with _ | ⟨first, _ | ⟨second, rest⟩⟩
  · simp [checkRestriction]
  · by_cases hScope : first.text ∈ restrictedWords <;>
      simp [checkRestriction, hScope]
  · by_cases hKeyword : first.text = "in" <;>
      simp [checkRestriction, hKeyword]

/- What may follow `pub`, as forms of a visibility. -/
theorem checkAfterPub_eq_ok_iff
    {word : Token}
    {rest : Code}
    (hWord : word.kind = .ident ∧ word.text = "pub") :
    checkAfterPub rest = .ok () ↔
      Code.IsVisibility (word :: rest) := by
  constructor
  · intro hCheck
    cases rest with
    | nil => exact .plain hWord
    | cons opening more =>
        simp only [checkAfterPub] at hCheck
        split at hCheck
        · cases hCheck
        · rename_i closing hLast
          split at hCheck
          · rename_i hTexts
            have hMore :
                more.dropLast ++ [closing] = more :=
              List.dropLast_append_getLast? closing hLast
            rw [← hMore]
            rcases checkRestriction_eq_ok_iff.mp hCheck with
              ⟨scope, hInner, hScope⟩ |
              ⟨keyword, path, hInner, hKeyword, hPath⟩
            · rw [hInner]
              exact .restricted hWord hTexts.1
                (by simpa [restrictedWords] using hScope)
                hTexts.2
            · rw [hInner]
              exact .within hWord hTexts.1 hKeyword hPath
                hTexts.2
          · cases hCheck
  · intro hVisibility
    cases hVisibility with
    | plain => rfl
    | restricted _ hOpening hScope hClosing =>
        simp [checkAfterPub, checkRestriction,
          restrictedWords, hOpening, hClosing, hScope]
    | @within _ opening keyword closing path _ hOpening
        hKeyword hPath hClosing =>
        have hLast :
            (keyword :: (path ++ [closing])).getLast? =
              some closing := by
          rw [← List.cons_append, List.getLast?_concat]
        have hInner :
            (keyword :: (path ++ [closing])).dropLast =
              keyword :: path := by
          rw [← List.cons_append, List.dropLast_concat]
        simp only [checkAfterPub, hLast, hInner, hOpening,
          hClosing, and_self, if_true]
        exact checkRestriction_eq_ok_iff.mpr
          (.inr ⟨keyword, path, rfl, hKeyword, hPath⟩)

/- A visibility is built from its forms. -/
theorem buildVisibility_eq_ok_iff
    {first : Token}
    {rest : Code}
    {fragment : Fragment} :
    buildVisibility first rest = .ok fragment ↔
      Code.IsVisibility (first :: rest) ∧
        fragment = .code (first :: rest) := by
  by_cases hWord : first.kind = .ident ∧ first.text = "pub"
  · rw [← checkAfterPub_eq_ok_iff hWord, buildVisibility,
      if_pos hWord]
    cases checkAfterPub rest <;>
      simp [Except.map, eq_comm]
  · rw [buildVisibility, if_neg hWord]
    constructor
    · intro hBuild
      cases hBuild
    · rintro ⟨hVisibility, _⟩
      cases hVisibility <;> contradiction

/- A bound is built from the path that spells it. -/
theorem buildPath_eq_ok_iff
    {first : Token}
    {rest : Code}
    {fragment : Fragment} :
    buildPath first rest = .ok fragment ↔
      ∃ bound, Code.SpellsBound (first :: rest) bound ∧
        fragment = .bound (.trait bound) := by
  by_cases hMark : first.kind = .punct ∧ first.text = "?"
  · have hRelaxed : Code.StartsRelaxed (first :: rest) :=
      ⟨first, rest, rfl, hMark⟩
    simp only [buildPath, if_pos hMark]
    cases rest with
    | nil =>
        constructor
        · intro hBuild
          cases hBuild
        · rintro ⟨bound, hSpells, _⟩
          cases hSpells <;> contradiction
    | cons second rest =>
        constructor
        · intro hBuild
          cases hBuild
          exact ⟨_, .relaxed hMark
            (List.cons_ne_nil second rest), rfl⟩
        · rintro ⟨bound, hSpells, rfl⟩
          cases hSpells with
          | plain _ hPlain => contradiction
          | relaxed => rfl
  · have hPlain : ¬ Code.StartsRelaxed (first :: rest) := by
      rintro ⟨mark, more, hCode, hFound⟩
      cases hCode
      exact hMark hFound
    simp only [buildPath, if_neg hMark]
    constructor
    · intro hBuild
      cases hBuild
      exact ⟨_, .plain (List.cons_ne_nil first rest) hPlain,
        rfl⟩
    · rintro ⟨bound, hSpells, rfl⟩
      cases hSpells with
      | plain => rfl
      | relaxed hFound => contradiction

/- A leaf for a single token is built from that token. -/
theorem build_single_iff
    {leaf : Leaf}
    {kind : Kind}
    {label : String}
    (hForm : leaf.form = .single kind label)
    {code : Code}
    {close : Token}
    {fragment : Fragment} :
    leaf.build code close = .ok fragment ↔
      ∃ token, code = [token] ∧ token.kind = kind ∧
        fragment = .token token := by
  rcases code with _ | ⟨first, rest⟩
  · simp [build, hForm]
  · by_cases hKind : first.kind = kind
    · cases rest <;>
        simp [build, hForm, buildSingle, hKind, eq_comm]
    · simp [build, hForm, buildSingle, hKind]

/- A leaf for code is built from any code that is there. -/
theorem build_verbatim_iff
    {leaf : Leaf}
    {empty : String}
    (hForm : leaf.form = .verbatim empty)
    {code : Code}
    {close : Token}
    {fragment : Fragment} :
    leaf.build code close = .ok fragment ↔
      code ≠ [] ∧ fragment = .code code := by
  cases code <;> simp [build, hForm, eq_comm]

/- A leaf for a path is built from a path that spells it. -/
theorem build_path_iff
    {leaf : Leaf}
    (hForm : leaf.form = .path)
    {code : Code}
    {close : Token}
    {fragment : Fragment} :
    leaf.build code close = .ok fragment ↔
      ∃ bound, code.SpellsBound bound ∧
        fragment = .bound (.trait bound) := by
  cases code with
  | nil =>
      simp only [build, hForm]
      constructor
      · intro hBuild
        cases hBuild
      · rintro ⟨bound, hSpells, _⟩
        cases hSpells
        contradiction
  | cons first rest =>
      simp only [build, hForm]
      exact buildPath_eq_ok_iff

/- A leaf is built from exactly the code that it holds. -/
theorem build_eq_ok_iff
    {leaf : Leaf}
    {code : Code}
    {close : Token}
    {fragment : Fragment} :
    leaf.build code close = .ok fragment ↔
      leaf.Holds code fragment := by
  -- The leaves of one form differ in their kinds of token and
  -- of fragment only.
  cases leaf with
  | name | lifetime | lifetimeName | lifetimeBound | abi =>
      rw [build_single_iff rfl]
      constructor
      · rintro ⟨token, rfl, hKind, rfl⟩
        constructor
        exact hKind
      · intro hHolds
        cases hHolds
        rename_i hKind
        exact ⟨_, rfl, hKind, rfl⟩
  | vis =>
      constructor
      · intro hBuild
        cases code with
        | nil => cases hBuild
        | cons first rest =>
            rcases buildVisibility_eq_ok_iff.mp hBuild with
              ⟨hCode, rfl⟩
            exact .vis hCode
      · intro hHolds
        cases hHolds with
        | vis hCode =>
            cases code with
            | nil => cases hCode
            | cons first rest =>
                exact buildVisibility_eq_ok_iff.mpr
                  ⟨hCode, rfl⟩
  | type | ret | defaultValue | pat =>
      rw [build_verbatim_iff rfl]
      constructor
      · rintro ⟨hCode, rfl⟩
        constructor
        exact hCode
      · intro hHolds
        cases hHolds
        rename_i hCode
        exact ⟨hCode, rfl⟩
  | rust =>
      constructor
      · intro hBuild
        cases hBuild
        exact .rust
      · rintro ⟨⟩
        rfl
  | req | typeBound =>
      rw [build_path_iff rfl]
      constructor
      · rintro ⟨bound, hCode, rfl⟩
        constructor
        exact hCode
      · intro hHolds
        cases hHolds
        rename_i hCode
        exact ⟨_, hCode, rfl⟩

/- What a leaf holds has the shape that the leaf declares. -/
theorem yields_of_holds
    {leaf : Leaf}
    {code : Code}
    {fragment : Fragment}
    (hHolds : leaf.Holds code fragment) :
    leaf.yields fragment := by
  cases hHolds <;> rfl

end Leaf

------------------------------------------------------------
-- Views Of Fragments
------------------------------------------------------------

namespace Fragment

variable {α : Type}

/- A view sees exactly the fragments of one form. -/
structure Views
    (view : Fragment → Option α)
    (form : α → Fragment) : Prop where
  iff :
    ∀ fragment value,
      view fragment = some value ↔ fragment = form value
  present :
    ∀ value, (form value).some? = some (form value)

theorem views_token : Views token? .token where
  iff := by
    intro fragment value
    cases fragment <;> simp [token?]
  present := fun _ => rfl

theorem views_code : Views code? .code where
  iff := by
    intro fragment value
    cases fragment <;> simp [code?]
  present := fun _ => rfl

theorem views_bound : Views bound? .bound where
  iff := by
    intro fragment value
    cases fragment <;> simp [bound?]
  present := fun _ => rfl

theorem views_traitBound : Views traitBound? (.bound ∘ .trait) where
  iff := by
    intro fragment value
    rcases fragment with _ | _ | _ | inner | _ | _ | inner
    all_goals try cases inner
    all_goals simp [traitBound?]
  present := fun _ => rfl

theorem views_param : Views param? .param where
  iff := by
    intro fragment value
    cases fragment <;> simp [param?]
  present := fun _ => rfl

theorem views_generics : Views generics? .generics where
  iff := by
    intro fragment value
    cases fragment <;> simp [generics?]
  present := fun _ => rfl

theorem views_clause : Views clause? .clause where
  iff := by
    intro fragment value
    cases fragment <;> simp [clause?]
  present := fun _ => rfl

theorem views_typeClause : Views typeClause? (.clause ∘ .type) where
  iff := by
    intro fragment value
    rcases fragment with _ | _ | _ | inner | _ | _ | inner
    all_goals try cases inner
    all_goals simp [typeClause?]
  present := fun _ => rfl

theorem views_clauses : Views clauses? .clauses where
  iff := by
    intro fragment value
    cases fragment <;> simp [clauses?]
  present := fun _ => rfl

theorem views_arg : Views arg? .arg where
  iff := by
    intro fragment value
    cases fragment <;> simp [arg?]
  present := fun _ => rfl

theorem views_args : Views args? .args where
  iff := by
    intro fragment value
    cases fragment <;> simp [args?]
  present := fun _ => rfl

theorem views_assocType : Views assocType? .assocType where
  iff := by
    intro fragment value
    cases fragment <;> simp [assocType?]
  present := fun _ => rfl

theorem views_assocConst : Views assocConst? .assocConst where
  iff := by
    intro fragment value
    cases fragment <;> simp [assocConst?]
  present := fun _ => rfl

theorem views_assocFn : Views assocFn? .assocFn where
  iff := by
    intro fragment value
    cases fragment <;> simp [assocFn?]
  present := fun _ => rfl

end Fragment

------------------------------------------------------------
-- Fields That Are Seen In One Way
------------------------------------------------------------

namespace Draft

variable {α : Type}
variable {draft : Draft}
variable {group : Section}
variable {field : Field}
variable {view : Fragment → Option α}
variable {form : α → Fragment}

/- A field that is given at most once has that value. -/
theorem HasAtMostOne.value?_eq
    {value : Option α}
    (hValue : draft.HasAtMostOne group field form value)
    (hViews : Fragment.Views view form) :
    draft.value? group field = value.map form := by
  unfold HasAtMostOne at hValue
  cases value with
  | none => simp [value?, hValue]
  | some value =>
      simpa [value?, hValue] using hViews.present value

/- A field that is given at most once is seen. -/
theorem HasAtMostOne.optional?_eq
    {value : Option α}
    (hValue : draft.HasAtMostOne group field form value)
    (hViews : Fragment.Views view form) :
    draft.optional? group field view = some value := by
  rw [optional?, hValue.value?_eq hViews]
  cases value with
  | none => rfl
  | some value =>
      simp [(hViews.iff (form value) value).mpr rfl]

/- A field that is given once is given at most once. -/
theorem HasOne.atMostOne
    {value : α}
    (hValue : draft.HasOne group field form value) :
    draft.HasAtMostOne group field form (some value) :=
  hValue

/- A field that is given once has that value. -/
theorem HasOne.value?_eq
    {value : α}
    (hValue : draft.HasOne group field form value)
    (hViews : Fragment.Views view form) :
    draft.value? group field = some (form value) :=
  hValue.atMostOne.value?_eq hViews

/- A field that is given once is seen. -/
theorem HasOne.the?_eq
    {value : α}
    (hValue : draft.HasOne group field form value)
    (hViews : Fragment.Views view form) :
    draft.the? group field view = some value := by
  rw [the?, hValue.value?_eq hViews]
  exact (hViews.iff (form value) value).mpr rfl

/- Every item of a field is seen. -/
theorem HasAll.every?_eq
    {values : List α}
    (hValues : draft.HasAll group field form values)
    (hViews : Fragment.Views view form) :
    draft.every? group field view = some values := by
  rw [every?, hValues]
  clear hValues
  induction values with
  | nil => rfl
  | cons value values ih =>
      rw [List.map_cons, List.mapM_cons, ih,
        (hViews.iff (form value) value).mpr rfl]
      rfl

/- A field whose items are seen lists them. -/
theorem exists_hasAll
    (hViews : Fragment.Views view form)
    (hFits :
      ∀ value ∈ draft.values group field,
        (view value).isSome) :
    ∃ values, draft.HasAll group field form values := by
  unfold HasAll
  generalize draft.values group field = found at hFits
  induction found with
  | nil => exact ⟨[], rfl⟩
  | cons first found ih =>
      rcases Option.isSome_iff_exists.mp
          (hFits first List.mem_cons_self) with
        ⟨value, hFirst⟩
      rcases ih fun other hOther =>
          hFits other (List.mem_cons_of_mem first hOther) with
        ⟨values, hFound⟩
      exact ⟨value :: values, by
        rw [List.map_cons, hFound,
          (hViews.iff first value).mp hFirst]⟩

/- A field whose only item is seen is given at most once. -/
theorem exists_hasAtMostOne
    (hViews : Fragment.Views view form)
    (hFits :
      ∀ value ∈ draft.values group field,
        (view value).isSome)
    (hOnce : (draft.values group field).length ≤ 1) :
    ∃ value, draft.HasAtMostOne group field form value := by
  rcases exists_hasAll hViews hFits with ⟨values, hValues⟩
  rw [hValues, List.length_map] at hOnce
  rcases values with _ | ⟨value, _ | ⟨other, values⟩⟩
  · exact ⟨none, hValues⟩
  · exact ⟨some value, hValues⟩
  · simp at hOnce

end Draft

------------------------------------------------------------
-- Typed Drafts
------------------------------------------------------------

namespace Section

/- Every child has the shape that its production declares. -/
def IsTyped
    (group : Section)
    (draft : Draft) : Prop :=
  ∀ tag fragment,
    Entry.child tag fragment ∈ draft.entries →
      ∃ child, group.child? tag = some child ∧
        child.production.yields fragment

end Section

namespace Field

/- The fragment has the form that the field is read with. -/
def fits
    (group : Section)
    (field : Field)
    (fragment : Fragment) :
    Bool :=
  match field, group with
  | .name, _ | .lifetime, _ | .abi, _ =>
      fragment.token?.isSome
  | .vis, _ | .type, _ | .value, _ | .arg, _ | .ret, _
  | .body, _ => fragment.code?.isSome
  | .bounds, .trait | .bounds, .assocType | .gparams, _ =>
      fragment.generics?.isSome
  | .bounds, .typeParam | .bounds, .typeClause =>
      fragment.bound?.isSome
  | .bounds, _ => fragment.token?.isSome
  | .clauses, _ => fragment.clauses?.isSome
  | .types, .trait => fragment.assocType?.isSome
  | .consts, .trait => fragment.assocConst?.isSome
  | .fns, _ => fragment.assocFn?.isSome
  | .lifetimes, .forBound | .lifetimes, .forClause =>
      fragment.token?.isSome
  | .lifetimes, _ | .types, _ | .consts, _ =>
      fragment.param?.isSome
  | .reqs, _ | .bound, _ => fragment.traitBound?.isSome
  | .clauseList, _ => fragment.clause?.isSome
  | .clause, _ => fragment.typeClause?.isSome
  | .params, .params => fragment.arg?.isSome
  | .params, _ => fragment.args?.isSome
  | .unsafety, _ | .isPattern, _ => true

end Field

namespace Section

/- What a production declares fits the field of its child. -/
theorem fits_of_child?
    {group : Section}
    {tag : Tag}
    {child : Child}
    {fragment : Fragment}
    (hChild : group.child? tag = some child)
    (hYields : child.production.yields fragment) :
    child.field.fits group (child.adapt fragment) := by
  cases group <;> cases tag <;> cases hChild <;>
    cases fragment <;>
      first
      | rfl
      | cases hYields
      | skip
  -- A path is a plain bound, and a `for` clause holds a plain
  -- type clause: here the form inside the fragment counts too.
  case bounds.req.refl.bound bound =>
    cases bound with
    | trait inner => rfl
    | lifetime name => cases hYields
    | forAll lifetimes inner => cases hYields
  case forBound.typeBound.refl.bound bound =>
    cases bound with
    | trait inner => rfl
    | lifetime name => cases hYields
    | forAll lifetimes inner => cases hYields
  case forClause.typeClause.refl.clause clause =>
    cases clause with
    | lifetime name bounds => cases hYields
    | type inner => rfl
    | forAll lifetimes inner => cases hYields

/- Every value of a typed draft fits its field. -/
theorem IsTyped.fits
    {group : Section}
    {draft : Draft}
    (hTyped : group.IsTyped draft)
    {field : Field}
    {value : Fragment}
    (hValue : value ∈ draft.values group field) :
    field.fits group value := by
  rcases List.mem_filterMap.mp hValue with
    ⟨entry, hEntry, hGiven⟩
  cases entry with
  | mark tag => cases hGiven
  | child tag fragment =>
      rcases hTyped tag fragment hEntry with
        ⟨child, hChild, hYields⟩
      simp only [Entry.value?, hChild] at hGiven
      split at hGiven
      · rename_i hField
        cases hGiven
        rw [← hField]
        exact fits_of_child? hChild hYields
      · cases hGiven

end Section

------------------------------------------------------------
-- Marks And Patterns
------------------------------------------------------------

namespace Draft

/- A mark is set when it is among the entries. -/
theorem marked_iff
    {draft : Draft}
    {tag : Tag} :
    draft.marked tag = true ↔
      Entry.mark tag ∈ draft.entries :=
  List.contains_iff_mem

/- The tags that give the argument are as many as its values. -/
theorem length_tagsFor
    (draft : Draft)
    (group : Section)
    (field : Field) :
    (draft.entries.filterMap
        (Entry.tagFor? group field)).length =
      (draft.values group field).length := by
  rw [values]
  induction draft.entries with
  | nil => rfl
  | cons entry entries ih =>
      rw [List.filterMap_cons, List.filterMap_cons]
      cases entry with
      | mark tag => exact ih
      | child tag fragment =>
          cases hValue :
              (Entry.child tag fragment).value? group field
            with
          | none => simpa [Entry.tagFor?, hValue] using ih
          | some value => simpa [Entry.tagFor?, hValue] using ih

/- The argument is a pattern when a pattern is an entry. -/
theorem isPattern_iff
    {draft : Draft}
    (hOnce : (draft.values .param .arg).length ≤ 1) :
    draft.isPattern .param = true ↔
      ∃ fragment,
        Entry.child .pat fragment ∈ draft.entries := by
  have hTags :
      Tag.pat ∈ draft.entries.filterMap
          (Entry.tagFor? .param .arg) ↔
        ∃ fragment,
          Entry.child .pat fragment ∈ draft.entries := by
    rw [List.mem_filterMap]
    constructor
    · rintro ⟨entry, hEntry, hTag⟩
      cases entry with
      | mark tag => cases hTag
      | child tag fragment =>
          cases hValue :
              (Entry.child tag fragment).value? .param .arg
            with
          | none => simp [Entry.tagFor?, hValue] at hTag
          | some value =>
              simp only [Entry.tagFor?, hValue] at hTag
              cases hTag
              exact ⟨fragment, hEntry⟩
    · rintro ⟨fragment, hEntry⟩
      exact ⟨_, hEntry, rfl⟩
  rw [← length_tagsFor] at hOnce
  rw [← hTags, isPattern, decide_eq_true_iff]
  generalize draft.entries.filterMap
    (Entry.tagFor? .param .arg) = tags at hOnce ⊢
  rcases tags with _ | ⟨first, _ | ⟨second, rest⟩⟩
  · simp
  · simp [eq_comm]
  · simp at hOnce

end Draft

------------------------------------------------------------
-- Closing What The Grammar Forms
------------------------------------------------------------

namespace Section

open Fragment

/- Generic parameters are put together from their fields. -/
theorem genericsOf?_eq
    {group : Section}
    {draft : Draft}
    {lifetimes types consts : List GenericParam}
    {requirements : List TraitBound}
    (hLifetimes :
      draft.HasAll group .lifetimes .param lifetimes)
    (hTypes : draft.HasAll group .types .param types)
    (hConsts : draft.HasAll group .consts .param consts)
    (hRequirements :
      draft.HasAll group .reqs (.bound ∘ .trait)
        requirements) :
    genericsOf? group draft =
      some
        { params := lifetimes ++ types ++ consts
          requirements := requirements } := by
  simp [genericsOf?, hLifetimes.every?_eq views_param,
    hTypes.every?_eq views_param,
    hConsts.every?_eq views_param,
    hRequirements.every?_eq views_traitBound]

/- The parameters of a function have no requirements. -/
theorem values_gparams_reqs
    (draft : Draft) :
    draft.HasAll .gparams .reqs
      (Fragment.bound ∘ Bound.trait) [] := by
  rw [Draft.HasAll, Draft.values, List.map_nil,
    List.filterMap_eq_nil_iff]
  intro entry _
  cases entry with
  | mark tag => rfl
  | child tag fragment => cases tag <;> rfl

/- A section that forms a fragment misses nothing. -/
theorem missing_of_forms
    {group : Section}
    {draft : Draft}
    {fragment : Fragment}
    (hForms : group.Forms draft fragment) :
    group.missing draft = [] := by
  cases hForms with
  | trait hName =>
      simp [missing, askFor, hName.value?_eq views_token]
  | bounds => rfl
  | gparams hLifetimes hTypes hConsts hSome =>
      unfold Draft.HasAll at hLifetimes hTypes hConsts
      simp [missing, askFor, hLifetimes, hTypes, hConsts]
      grind
  | lifetimeParam hName =>
      simp [missing, askFor, hName.value?_eq views_token]
  | typeParam hName =>
      simp [missing, askFor, hName.value?_eq views_token]
  | constParam hName hType =>
      simp [missing, askFor, hName.value?_eq views_token,
        hType.value?_eq views_code]
  | forBound hLifetimes hSome hBound =>
      unfold Draft.HasAll at hLifetimes
      simp [missing, askFor, hLifetimes, hSome,
        hBound.value?_eq views_traitBound]
  | clauses hClauses hSome =>
      unfold Draft.HasAll at hClauses
      simp [missing, askFor, hClauses, hSome]
  | lifetimeClause hName hBounds hSome =>
      unfold Draft.HasAll at hBounds
      simp [missing, askFor, hName.value?_eq views_token,
        hBounds, hSome]
  | typeClause hType =>
      simp [missing, askFor, hType.value?_eq views_code]
  | forClause hLifetimes hSome hClause =>
      unfold Draft.HasAll at hLifetimes
      simp [missing, askFor, hLifetimes, hSome,
        hClause.value?_eq views_typeClause]
  | assocType hName =>
      simp [missing, askFor, hName.value?_eq views_token]
  | assocConst hName hType =>
      simp [missing, askFor, hName.value?_eq views_token,
        hType.value?_eq views_code]
  | param hArg hType =>
      simp [missing, askFor, hArg.value?_eq views_code,
        hType.value?_eq views_code]
  | params => rfl
  | assocFn hName =>
      simp [missing, askFor, hName.value?_eq views_token]

/- A section builds the fragment that it forms. -/
theorem build?_of_forms
    {group : Section}
    {draft : Draft}
    {fragment : Fragment}
    (hForms : group.Forms draft fragment) :
    group.build? draft = some fragment := by
  cases hForms with
  | trait hName hVis hUnsafe hGenerics hParams hRequirements
      hClauses hWhere hTypes hConsts hFns =>
      have hMarked :=
        Bool.eq_iff_iff.mpr
          (Draft.marked_iff.trans hUnsafe.symm)
      simp [build?, traitDeclOf?,
        hName.the?_eq views_token,
        hVis.optional?_eq views_code,
        hMarked,
        hGenerics.optional?_eq views_generics,
        hClauses.optional?_eq views_clauses,
        hTypes.every?_eq views_assocType,
        hConsts.every?_eq views_assocConst,
        hFns.every?_eq views_assocFn,
        ← hParams, ← hRequirements, ← hWhere]
  | bounds hLifetimes hTypes hConsts hRequirements =>
      simp [build?, genericsOf?_eq hLifetimes hTypes hConsts
        hRequirements]
  | gparams hLifetimes hTypes hConsts hSome =>
      simp [build?, genericsOf?_eq hLifetimes hTypes hConsts
        (values_gparams_reqs draft)]
  | lifetimeParam hName hBounds =>
      simp [build?, lifetimeParamOf?,
        hName.the?_eq views_token,
        hBounds.every?_eq views_token]
  | typeParam hName hBounds =>
      simp [build?, typeParamOf?,
        hName.the?_eq views_token,
        hBounds.every?_eq views_bound]
  | constParam hName hType =>
      simp [build?, constParamOf?,
        hName.the?_eq views_token,
        hType.the?_eq views_code]
  | forBound hLifetimes hSome hBound =>
      simp [build?, forBoundOf?,
        hLifetimes.every?_eq views_token,
        hBound.the?_eq views_traitBound]
  | clauses hClauses hSome =>
      simp [build?, hClauses.every?_eq views_clause]
  | lifetimeClause hName hBounds hSome =>
      simp [build?, lifetimeClauseOf?,
        hName.the?_eq views_token,
        hBounds.every?_eq views_token]
  | typeClause hType hBounds =>
      simp [build?, typeClauseOf?,
        hType.the?_eq views_code,
        hBounds.every?_eq views_bound]
  | forClause hLifetimes hSome hClause =>
      simp [build?, forClauseOf?,
        hLifetimes.every?_eq views_token,
        hClause.the?_eq views_typeClause]
  | assocType hName hGenerics hParams hBounds hClauses
      hWhere =>
      simp [build?, assocTypeOf?,
        hName.the?_eq views_token,
        hGenerics.optional?_eq views_generics,
        hClauses.optional?_eq views_clauses,
        ← hParams, ← hBounds, ← hWhere]
  | assocConst hName hType hValue =>
      simp [build?, assocConstOf?,
        hName.the?_eq views_token,
        hType.the?_eq views_code,
        hValue.optional?_eq views_code]
  | param hArg hType hPattern =>
      have hOnce :
          (draft.values .param .arg).length ≤ 1 := by
        rw [hArg]
        exact Nat.le_refl 1
      have hIsPattern :=
        Bool.eq_iff_iff.mpr
          ((Draft.isPattern_iff hOnce).trans hPattern.symm)
      simp [build?, fnParamOf?,
        hArg.the?_eq views_code,
        hType.the?_eq views_code,
        hIsPattern]
  | params hArgs =>
      simp [build?, hArgs.every?_eq views_arg]
  | assocFn hName hUnsafe hAbi hGenerics hParams hArgs
      hItemArgs hRet hClauses hWhere hBody =>
      have hMarked :=
        Bool.eq_iff_iff.mpr
          (Draft.marked_iff.trans hUnsafe.symm)
      simp [build?, assocFnOf?,
        hName.the?_eq views_token,
        hMarked,
        hAbi.optional?_eq views_token,
        hGenerics.optional?_eq views_generics,
        hArgs.optional?_eq views_args,
        hRet.optional?_eq views_code,
        hClauses.optional?_eq views_clauses,
        hBody.optional?_eq views_code,
        ← hParams, ← hItemArgs, ← hWhere]

/- A section that forms a fragment is closed with it. -/
theorem close_of_forms
    {group : Section}
    {draft : Draft}
    {fragment : Fragment}
    (hForms : group.Forms draft fragment)
    (path : List String)
    (token : Token) :
    group.close path draft token = .ok fragment := by
  have hFinish : group.finish draft = .ok fragment := by
    simp [finish, build?_of_forms hForms]
  rw [close, missing_of_forms hForms, hFinish]
  rfl

end Section

------------------------------------------------------------
-- Forming What Can Be Closed
------------------------------------------------------------

namespace Section

open Fragment

namespace IsTyped

variable {α : Type}
variable {group : Section}
variable {draft : Draft}
variable {view : Fragment → Option α}
variable {form : α → Fragment}

/- A field of a typed draft lists its values. -/
theorem exists_all
    (hTyped : group.IsTyped draft)
    (field : Field)
    (hViews : Fragment.Views view form)
    (hFits :
      ∀ value, field.fits group value =
        (view value).isSome) :
    ∃ values, draft.HasAll group field form values := by
  apply Draft.exists_hasAll hViews
  intro value hValue
  rw [← hFits]
  exact hTyped.fits hValue

/- A single field of a typed draft is given at most once. -/
theorem exists_atMostOne
    (hTyped : group.IsTyped draft)
    (hOnce : group.SetsOnce draft)
    (tag : Tag)
    {child : Child}
    (hChild : group.child? tag = some child)
    (hSingle : child.repeated = false)
    (hViews : Fragment.Views view form)
    (hFits :
      ∀ value, child.field.fits group value =
        (view value).isSome) :
    ∃ value,
      draft.HasAtMostOne group child.field form value := by
  apply Draft.exists_hasAtMostOne hViews
  · intro value hValue
    rw [← hFits]
    exact hTyped.fits hValue
  · exact hOnce.1 tag child hChild hSingle

/- A single field of a typed draft that has a value. -/
theorem exists_one
    (hTyped : group.IsTyped draft)
    (hOnce : group.SetsOnce draft)
    (tag : Tag)
    {child : Child}
    (hChild : group.child? tag = some child)
    (hSingle : child.repeated = false)
    (hViews : Fragment.Views view form)
    (hFits :
      ∀ value, child.field.fits group value =
        (view value).isSome)
    (hGiven : draft.value? group child.field ≠ none) :
    ∃ value, draft.HasOne group child.field form value := by
  rcases hTyped.exists_atMostOne hOnce tag hChild hSingle hViews
      hFits with
    ⟨value, hValue⟩
  cases value with
  | none => exact absurd (hValue.value?_eq hViews) hGiven
  | some value => exact ⟨value, hValue⟩

end IsTyped

/- A complete draft of a trait forms a declaration. -/
theorem exists_forms_trait
    {draft : Draft}
    (hTyped : trait.IsTyped draft)
    (hOnce : trait.SetsOnce draft)
    (hMissing : trait.missing draft = []) :
    ∃ fragment, trait.Forms draft fragment := by
  have hGiven : draft.value? .trait .name ≠ none := by
    simpa [missing, askFor] using hMissing
  rcases hTyped.exists_one hOnce .name rfl rfl views_token
      (fun _ => rfl) hGiven with
    ⟨name, hName⟩
  rcases hTyped.exists_atMostOne hOnce .vis rfl rfl views_code
      (fun _ => rfl) with
    ⟨vis, hVis⟩
  rcases hTyped.exists_atMostOne hOnce .bounds rfl rfl
      views_generics (fun _ => rfl) with
    ⟨generics, hGenerics⟩
  rcases hTyped.exists_atMostOne hOnce .clauses rfl rfl
      views_clauses (fun _ => rfl) with
    ⟨clauses, hClauses⟩
  rcases hTyped.exists_all .types views_assocType
      (fun _ => rfl) with
    ⟨types, hTypes⟩
  rcases hTyped.exists_all .consts views_assocConst
      (fun _ => rfl) with
    ⟨consts, hConsts⟩
  rcases hTyped.exists_all .fns views_assocFn
      (fun _ => rfl) with
    ⟨fns, hFns⟩
  refine ⟨.trait {
    name := name
    vis := vis
    isUnsafe := draft.marked .unsafety
    params := (generics.getD {}).params
    requirements := (generics.getD {}).requirements
    clauses := clauses.getD []
    types := types
    consts := consts
    fns := fns }, ?_⟩
  exact .trait hName hVis Draft.marked_iff hGenerics rfl rfl
    hClauses rfl hTypes hConsts hFns

/- A complete draft of a function forms a function. -/
theorem exists_forms_assocFn
    {draft : Draft}
    (hTyped : assocFn.IsTyped draft)
    (hOnce : assocFn.SetsOnce draft)
    (hMissing : assocFn.missing draft = []) :
    ∃ fragment, assocFn.Forms draft fragment := by
  have hGiven : draft.value? .assocFn .name ≠ none := by
    simpa [missing, askFor] using hMissing
  rcases hTyped.exists_one hOnce .name rfl rfl views_token
      (fun _ => rfl) hGiven with
    ⟨name, hName⟩
  rcases hTyped.exists_atMostOne hOnce .abi rfl rfl views_token
      (fun _ => rfl) with
    ⟨abi, hAbi⟩
  rcases hTyped.exists_atMostOne hOnce .gparams rfl rfl
      views_generics (fun _ => rfl) with
    ⟨generics, hGenerics⟩
  rcases hTyped.exists_atMostOne hOnce .params rfl rfl views_args
      (fun _ => rfl) with
    ⟨args, hArgs⟩
  rcases hTyped.exists_atMostOne hOnce .ret rfl rfl views_code
      (fun _ => rfl) with
    ⟨ret, hRet⟩
  rcases hTyped.exists_atMostOne hOnce .clauses rfl rfl
      views_clauses (fun _ => rfl) with
    ⟨clauses, hClauses⟩
  rcases hTyped.exists_atMostOne hOnce .rust rfl rfl views_code
      (fun _ => rfl) with
    ⟨body, hBody⟩
  refine ⟨.assocFn {
    name := name
    qualifiers :=
      { isUnsafe := draft.marked .unsafety, abi := abi }
    params := (generics.getD {}).params
    args := args.getD []
    ret := ret
    clauses := clauses.getD []
    body := body }, ?_⟩
  exact .assocFn hName Draft.marked_iff hAbi hGenerics rfl
    hArgs rfl hRet hClauses rfl hBody

/- A draft of bounds forms generics. -/
theorem exists_forms_bounds
    {draft : Draft}
    (hTyped : bounds.IsTyped draft) :
    ∃ fragment, bounds.Forms draft fragment := by
  rcases hTyped.exists_all .lifetimes views_param
      (fun _ => rfl) with
    ⟨lifetimes, hLifetimes⟩
  rcases hTyped.exists_all .types views_param
      (fun _ => rfl) with
    ⟨types, hTypes⟩
  rcases hTyped.exists_all .consts views_param
      (fun _ => rfl) with
    ⟨consts, hConsts⟩
  rcases hTyped.exists_all .reqs views_traitBound
      (fun _ => rfl) with
    ⟨requirements, hRequirements⟩
  exact ⟨_, .bounds hLifetimes hTypes hConsts
    hRequirements⟩

/- A complete draft of parameters forms generics. -/
theorem exists_forms_gparams
    {draft : Draft}
    (hTyped : gparams.IsTyped draft)
    (hMissing : gparams.missing draft = []) :
    ∃ fragment, gparams.Forms draft fragment := by
  rcases hTyped.exists_all .lifetimes views_param
      (fun _ => rfl) with
    ⟨lifetimes, hLifetimes⟩
  rcases hTyped.exists_all .types views_param
      (fun _ => rfl) with
    ⟨types, hTypes⟩
  rcases hTyped.exists_all .consts views_param
      (fun _ => rfl) with
    ⟨consts, hConsts⟩
  have hSome : lifetimes ++ types ++ consts ≠ [] := by
    unfold Draft.HasAll at hLifetimes hTypes hConsts
    simpa [missing, askFor, hLifetimes, hTypes, hConsts]
      using hMissing
  exact ⟨_, .gparams hLifetimes hTypes hConsts hSome⟩

/- A complete draft of a lifetime parameter forms one. -/
theorem exists_forms_lifetimeParam
    {draft : Draft}
    (hTyped : lifetimeParam.IsTyped draft)
    (hOnce : lifetimeParam.SetsOnce draft)
    (hMissing : lifetimeParam.missing draft = []) :
    ∃ fragment, lifetimeParam.Forms draft fragment := by
  have hGiven :
      draft.value? .lifetimeParam .name ≠ none := by
    simpa [missing, askFor] using hMissing
  rcases hTyped.exists_one hOnce .name rfl rfl views_token
      (fun _ => rfl) hGiven with
    ⟨name, hName⟩
  rcases hTyped.exists_all .bounds views_token
      (fun _ => rfl) with
    ⟨bounds, hBounds⟩
  exact ⟨_, .lifetimeParam hName hBounds⟩

/- A complete draft of a type parameter forms one. -/
theorem exists_forms_typeParam
    {draft : Draft}
    (hTyped : typeParam.IsTyped draft)
    (hOnce : typeParam.SetsOnce draft)
    (hMissing : typeParam.missing draft = []) :
    ∃ fragment, typeParam.Forms draft fragment := by
  have hGiven :
      draft.value? .typeParam .name ≠ none := by
    simpa [missing, askFor] using hMissing
  rcases hTyped.exists_one hOnce .name rfl rfl views_token
      (fun _ => rfl) hGiven with
    ⟨name, hName⟩
  rcases hTyped.exists_all .bounds views_bound
      (fun _ => rfl) with
    ⟨bounds, hBounds⟩
  exact ⟨_, .typeParam hName hBounds⟩

/- A complete draft of a constant parameter forms one. -/
theorem exists_forms_constParam
    {draft : Draft}
    (hTyped : constParam.IsTyped draft)
    (hOnce : constParam.SetsOnce draft)
    (hMissing : constParam.missing draft = []) :
    ∃ fragment, constParam.Forms draft fragment := by
  have hGiven :
      draft.value? .constParam .name ≠ none ∧
        draft.value? .constParam .type ≠ none := by
    simpa [missing, askFor] using hMissing
  rcases hTyped.exists_one hOnce .name rfl rfl views_token
      (fun _ => rfl) hGiven.1 with
    ⟨name, hName⟩
  rcases hTyped.exists_one hOnce .type rfl rfl views_code
      (fun _ => rfl) hGiven.2 with
    ⟨code, hType⟩
  exact ⟨_, .constParam hName hType⟩

/- A complete draft of a bound for all lifetimes forms one. -/
theorem exists_forms_forBound
    {draft : Draft}
    (hTyped : forBound.IsTyped draft)
    (hOnce : forBound.SetsOnce draft)
    (hMissing : forBound.missing draft = []) :
    ∃ fragment, forBound.Forms draft fragment := by
  rcases hTyped.exists_all .lifetimes views_token
      (fun _ => rfl) with
    ⟨lifetimes, hLifetimes⟩
  have hGiven :
      lifetimes ≠ [] ∧
        draft.value? .forBound .bound ≠ none := by
    unfold Draft.HasAll at hLifetimes
    simpa [missing, askFor, hLifetimes] using hMissing
  rcases hTyped.exists_one hOnce .typeBound rfl rfl
      views_traitBound (fun _ => rfl) hGiven.2 with
    ⟨bound, hBound⟩
  exact ⟨_, .forBound hLifetimes hGiven.1 hBound⟩

/- A complete draft of clauses forms their list. -/
theorem exists_forms_clauses
    {draft : Draft}
    (hTyped : clauses.IsTyped draft)
    (hMissing : clauses.missing draft = []) :
    ∃ fragment, clauses.Forms draft fragment := by
  rcases hTyped.exists_all .clauseList views_clause
      (fun _ => rfl) with
    ⟨clauses, hClauses⟩
  have hSome : clauses ≠ [] := by
    unfold Draft.HasAll at hClauses
    simpa [missing, askFor, hClauses] using hMissing
  exact ⟨_, .clauses hClauses hSome⟩

/- A complete draft of a clause on a lifetime forms one. -/
theorem exists_forms_lifetimeClause
    {draft : Draft}
    (hTyped : lifetimeClause.IsTyped draft)
    (hOnce : lifetimeClause.SetsOnce draft)
    (hMissing : lifetimeClause.missing draft = []) :
    ∃ fragment, lifetimeClause.Forms draft fragment := by
  rcases hTyped.exists_all .bounds views_token
      (fun _ => rfl) with
    ⟨bounds, hBounds⟩
  have hGiven :
      draft.value? .lifetimeClause .lifetime ≠ none ∧
        bounds ≠ [] := by
    unfold Draft.HasAll at hBounds
    simp only [missing] at hMissing
    split at hMissing
    · rename_i hName
      exact ⟨Option.isSome_iff_ne_none.mp hName, by
        simpa [askFor, hBounds] using hMissing⟩
    · cases hMissing
  rcases hTyped.exists_one hOnce .lifetime rfl rfl views_token
      (fun _ => rfl) hGiven.1 with
    ⟨name, hName⟩
  exact ⟨_, .lifetimeClause hName hBounds hGiven.2⟩

/- A complete draft of a clause on a type forms one. -/
theorem exists_forms_typeClause
    {draft : Draft}
    (hTyped : typeClause.IsTyped draft)
    (hOnce : typeClause.SetsOnce draft)
    (hMissing : typeClause.missing draft = []) :
    ∃ fragment, typeClause.Forms draft fragment := by
  have hGiven :
      draft.value? .typeClause .type ≠ none := by
    simpa [missing, askFor] using hMissing
  rcases hTyped.exists_one hOnce .type rfl rfl views_code
      (fun _ => rfl) hGiven with
    ⟨code, hType⟩
  rcases hTyped.exists_all .bounds views_bound
      (fun _ => rfl) with
    ⟨bounds, hBounds⟩
  exact ⟨_, .typeClause hType hBounds⟩

/- A complete draft of a clause for all lifetimes forms one. -/
theorem exists_forms_forClause
    {draft : Draft}
    (hTyped : forClause.IsTyped draft)
    (hOnce : forClause.SetsOnce draft)
    (hMissing : forClause.missing draft = []) :
    ∃ fragment, forClause.Forms draft fragment := by
  rcases hTyped.exists_all .lifetimes views_token
      (fun _ => rfl) with
    ⟨lifetimes, hLifetimes⟩
  have hGiven :
      lifetimes ≠ [] ∧
        draft.value? .forClause .clause ≠ none := by
    unfold Draft.HasAll at hLifetimes
    simpa [missing, askFor, hLifetimes] using hMissing
  rcases hTyped.exists_one hOnce .typeClause rfl rfl
      views_typeClause (fun _ => rfl) hGiven.2 with
    ⟨clause, hClause⟩
  exact ⟨_, .forClause hLifetimes hGiven.1 hClause⟩

/- A complete draft of a type forms an associated type. -/
theorem exists_forms_assocType
    {draft : Draft}
    (hTyped : assocType.IsTyped draft)
    (hOnce : assocType.SetsOnce draft)
    (hMissing : assocType.missing draft = []) :
    ∃ fragment, assocType.Forms draft fragment := by
  have hGiven :
      draft.value? .assocType .name ≠ none := by
    simpa [missing, askFor] using hMissing
  rcases hTyped.exists_one hOnce .name rfl rfl views_token
      (fun _ => rfl) hGiven with
    ⟨name, hName⟩
  rcases hTyped.exists_atMostOne hOnce .bounds rfl rfl
      views_generics (fun _ => rfl) with
    ⟨generics, hGenerics⟩
  rcases hTyped.exists_atMostOne hOnce .clauses rfl rfl
      views_clauses (fun _ => rfl) with
    ⟨clauses, hClauses⟩
  refine ⟨.assocType {
    name := name
    params := (generics.getD {}).params
    bounds := (generics.getD {}).requirements
    clauses := clauses.getD [] }, ?_⟩
  exact .assocType hName hGenerics rfl rfl hClauses rfl

/- A complete draft of a constant forms a constant. -/
theorem exists_forms_assocConst
    {draft : Draft}
    (hTyped : assocConst.IsTyped draft)
    (hOnce : assocConst.SetsOnce draft)
    (hMissing : assocConst.missing draft = []) :
    ∃ fragment, assocConst.Forms draft fragment := by
  have hGiven :
      draft.value? .assocConst .name ≠ none ∧
        draft.value? .assocConst .type ≠ none := by
    simpa [missing, askFor] using hMissing
  rcases hTyped.exists_one hOnce .name rfl rfl views_token
      (fun _ => rfl) hGiven.1 with
    ⟨name, hName⟩
  rcases hTyped.exists_one hOnce .type rfl rfl views_code
      (fun _ => rfl) hGiven.2 with
    ⟨code, hType⟩
  rcases hTyped.exists_atMostOne hOnce .defaultValue rfl rfl
      views_code (fun _ => rfl) with
    ⟨value, hValue⟩
  refine ⟨.assocConst
    { name := name, type := code, value := value }, ?_⟩
  exact .assocConst hName hType hValue

/- A complete draft of an argument forms one. -/
theorem exists_forms_param
    {draft : Draft}
    (hTyped : param.IsTyped draft)
    (hOnce : param.SetsOnce draft)
    (hMissing : param.missing draft = []) :
    ∃ fragment, param.Forms draft fragment := by
  have hGiven :
      draft.value? .param .arg ≠ none ∧
        draft.value? .param .type ≠ none := by
    simpa [missing, askFor] using hMissing
  rcases hTyped.exists_one hOnce .pat rfl rfl views_code
      (fun _ => rfl) hGiven.1 with
    ⟨arg, hArg⟩
  rcases hTyped.exists_one hOnce .type rfl rfl views_code
      (fun _ => rfl) hGiven.2 with
    ⟨code, hType⟩
  have hArgs : (draft.values .param .arg).length ≤ 1 :=
    hOnce.1 .pat _ rfl rfl
  refine ⟨.arg {
    arg := arg
    type := code
    isPattern := draft.isPattern .param }, ?_⟩
  exact .param hArg hType (Draft.isPattern_iff hArgs)

/- A draft of arguments forms their list. -/
theorem exists_forms_params
    {draft : Draft}
    (hTyped : params.IsTyped draft) :
    ∃ fragment, params.Forms draft fragment := by
  rcases hTyped.exists_all .params views_arg
      (fun _ => rfl) with
    ⟨args, hArgs⟩
  exact ⟨_, .params hArgs⟩

/- A typed draft that misses nothing forms a fragment. -/
theorem exists_forms
    {group : Section}
    {draft : Draft}
    (hTyped : group.IsTyped draft)
    (hOnce : group.SetsOnce draft)
    (hMissing : group.missing draft = []) :
    ∃ fragment, group.Forms draft fragment := by
  cases group with
  | trait => exact exists_forms_trait hTyped hOnce hMissing
  | bounds => exact exists_forms_bounds hTyped
  | gparams => exact exists_forms_gparams hTyped hMissing
  | lifetimeParam =>
      exact exists_forms_lifetimeParam hTyped hOnce hMissing
  | typeParam => exact exists_forms_typeParam hTyped hOnce hMissing
  | constParam =>
      exact exists_forms_constParam hTyped hOnce hMissing
  | forBound => exact exists_forms_forBound hTyped hOnce hMissing
  | clauses => exact exists_forms_clauses hTyped hMissing
  | lifetimeClause =>
      exact exists_forms_lifetimeClause hTyped hOnce hMissing
  | typeClause =>
      exact exists_forms_typeClause hTyped hOnce hMissing
  | forClause => exact exists_forms_forClause hTyped hOnce hMissing
  | assocType => exact exists_forms_assocType hTyped hOnce hMissing
  | assocConst =>
      exact exists_forms_assocConst hTyped hOnce hMissing
  | param => exact exists_forms_param hTyped hOnce hMissing
  | params => exact exists_forms_params hTyped
  | assocFn => exact exists_forms_assocFn hTyped hOnce hMissing

/- A section is closed with exactly the fragment it forms. -/
theorem close_eq_ok_iff
    {group : Section}
    {draft : Draft}
    (hTyped : group.IsTyped draft)
    (hOnce : group.SetsOnce draft)
    {path : List String}
    {token : Token}
    {fragment : Fragment} :
    group.close path draft token = .ok fragment ↔
      group.Forms draft fragment := by
  constructor
  · intro hClose
    have hMissing : group.missing draft = [] := by
      rw [close] at hClose
      split at hClose
      · assumption
      · split at hClose <;> cases hClose
    rcases exists_forms hTyped hOnce hMissing with
      ⟨other, hForms⟩
    rw [close_of_forms hForms path token] at hClose
    cases hClose
    exact hForms
  · intro hForms
    exact close_of_forms hForms path token

/- What a section forms has the shape that it declares. -/
theorem yields_of_forms
    {group : Section}
    {draft : Draft}
    {fragment : Fragment}
    (hForms : group.Forms draft fragment) :
    group.yields fragment := by
  cases hForms <;> rfl

end Section

end TraitMarkup
