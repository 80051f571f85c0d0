import Mathlib.Data.List.Forall2
import TraitMarkup.Proofs.Omission
import TraitMarkup.Rust.Printer

/-
  Generic parameters come out in one order.

  The sections of parameters may be written in any order. They
  are put into one: lifetimes, then types, then constants, and
  those of one kind as they were written. Nothing is lost and
  nothing occurs twice. A declaration that was read is printed
  with its parameters and requirements in that order.

  Key definitions include:
    * `Piece.part?`
    * `Section.Lists`
    * `Generics.ofPieces`
    * `Generics.WrittenIn`
    * `Line.Begin`
    * `Piece.PrintsType`, `Piece.PrintsFn`
    * `TraitDecl.PrintedFrom`

  Main declarations:
    * `Section.Lists.eq_filterMap`
    * `Generics.forms_iff`
    * `Generics.perm_ofPieces`
    * `Generics.writtenIn_of_hasAtMostOne`
    * `Generics.ordering`
-/

namespace TraitMarkup

------------------------------------------------------------
-- Parts Of Pieces
------------------------------------------------------------

namespace Piece

/- The piece is a child of the tag. -/
def hasTag
    (tag : Tag) :
    Piece → Bool
  | child _ _ other _ => other = tag
  | mark _ _ => false

/- What a child stands for. -/
def fragment? : Piece → Option Fragment
  | child _ _ _ fragment => some fragment
  | mark _ _ => none

/- What a child of the tag stands for, seen in one way. -/
def part?
    {α : Type}
    (tag : Tag)
    (view : Fragment → Option α)
    (piece : Piece) :
    Option α :=
  if piece.hasTag tag then
    piece.fragment?.bind view
  else
    none

end Piece

/-
  The field lists the children of the tag: no other tag fills
  it, and the children are kept as they are.
-/
structure Section.Lists
    (group : Section)
    (tag : Tag)
    (field : Field) : Prop where
  found :
    ∃ child,
      group.child? tag = some child ∧
        child.field = field ∧
        child.adaptation = .keep
  alone : group.fillers field = [tag]

namespace Section.Lists

variable {group : Section}
variable {tag : Tag}
variable {field : Field}

/- A piece gives the field what a child of the tag stands for. -/
theorem value?_entry
    (hLists : group.Lists tag field)
    (piece : Piece) :
    piece.entry.value? group field =
      if piece.hasTag tag then piece.fragment? else none := by
  rcases hLists.found with ⟨child, hChild, rfl, hKept⟩
  cases piece with
  | mark token other => rfl
  | child opener inside other fragment =>
      simp only [Piece.entry, Entry.value?, Piece.hasTag,
        Piece.fragment?, decide_eq_true_eq]
      by_cases hTag : other = tag
      · subst hTag
        simp [hChild, Child.adapt, hKept]
      · rw [if_neg hTag]
        split
        · rfl
        · rename_i kind hKind
          rw [if_neg]
          intro hField
          have hFills : other ∈ group.fillers child.field :=
            mem_fillers.mpr ⟨kind, hKind, hField⟩
          rw [hLists.alone, List.mem_singleton] at hFills
          exact hTag hFills

/- The field holds what the children of the tag stand for. -/
theorem values_ofPieces
    (hLists : group.Lists tag field)
    (pieces : List Piece) :
    (Draft.ofPieces pieces).values group field =
      (pieces.filter (·.hasTag tag)).filterMap
        Piece.fragment? := by
  rw [Draft.values, Draft.ofPieces, List.filterMap_map,
    List.filterMap_filter]
  exact List.filterMap_congr fun piece _ =>
    hLists.value?_entry piece

/- All values of the field are what the pieces list for it. -/
theorem eq_filterMap
    {α : Type}
    {view : Fragment → Option α}
    {form : α → Fragment}
    (hLists : group.Lists tag field)
    (hViews : Fragment.Views view form)
    {pieces : List Piece}
    {values : List α}
    (hAll :
      (Draft.ofPieces pieces).HasAll group field form values) :
    values = pieces.filterMap (Piece.part? tag view) := by
  have hSeen : values = (values.map form).filterMap view := by
    have hForm : view ∘ form = some :=
      funext fun value => (hViews.iff _ value).mpr rfl
    rw [List.filterMap_map, hForm, List.filterMap_some]
  have hValues := hLists.values_ofPieces pieces
  rw [Draft.HasAll] at hAll
  rw [hSeen, ← hAll, hValues, List.filterMap_filterMap,
    List.filterMap_filter]
  refine List.filterMap_congr fun piece _ => ?_
  simp [Piece.part?]

/-
  The children of the tag stand for the values of the field,
  one for each and in source order.
-/
theorem forall₂
    {α : Type}
    {form : α → Fragment}
    (hLists : group.Lists tag field)
    {pieces : List Piece}
    (hFits : ∀ piece ∈ pieces, piece.Fits group)
    {values : List α}
    (hAll :
      (Draft.ofPieces pieces).HasAll group field form values) :
    List.Forall₂
      (fun piece value =>
        ∃ opener inside,
          piece = .child opener inside tag (form value) ∧
            piece.Fits group)
      (pieces.filter (·.hasTag tag)) values := by
  rw [Draft.HasAll, hLists.values_ofPieces] at hAll
  induction pieces generalizing values with
  | nil =>
      rw [List.filter_nil, List.filterMap_nil] at hAll
      rw [List.map_eq_nil_iff.mp hAll.symm]
      exact .nil
  | cons piece pieces ih =>
      rcases List.forall_mem_cons.mp hFits with
        ⟨hPiece, hPieces⟩
      rw [List.filter_cons] at hAll ⊢
      split
      · rename_i hTag
        rw [if_pos hTag] at hAll
        cases piece with
        | mark token other => cases hTag
        | child opener inside other fragment =>
            have hSame : other = tag := by
              simpa [Piece.hasTag] using hTag
            subst hSame
            cases values with
            | nil => cases hAll
            | cons value values =>
                rcases List.cons.inj hAll with ⟨rfl, hRest⟩
                exact .cons ⟨opener, inside, rfl, hPiece⟩
                  (ih hPieces hRest)
      · rename_i hTag
        rw [if_neg hTag] at hAll
        exact ih hPieces hAll

end Section.Lists

------------------------------------------------------------
-- Generics Of Pieces
------------------------------------------------------------

namespace Generics

open Fragment

/-
  The generics that pieces declare: first lifetimes, then types,
  then constants, and those of one kind in source order.
-/
def ofPieces
    (pieces : List Piece) :
    Generics where
  params :=
    pieces.filterMap (Piece.part? .lifetime param?)
      ++ pieces.filterMap (Piece.part? .type param?)
      ++ pieces.filterMap (Piece.part? .const param?)
  requirements :=
    pieces.filterMap (Piece.part? .req traitBound?)

variable {group : Section}
variable {pieces : List Piece}
variable {fragment : Fragment}

/- What pieces of parameters form are the generics of them. -/
theorem eq_of_forms
    (hGroup : group = .bounds ∨ group = .gparams)
    (hFits : ∀ piece ∈ pieces, piece.Fits group)
    (hForms : group.Forms (.ofPieces pieces) fragment) :
    fragment = .generics (ofPieces pieces) := by
  have hLifetimes : group.Lists .lifetime .lifetimes := by
    rcases hGroup with rfl | rfl <;>
      exact ⟨⟨_, rfl, rfl, rfl⟩, rfl⟩
  have hTypes : group.Lists .type .types := by
    rcases hGroup with rfl | rfl <;>
      exact ⟨⟨_, rfl, rfl, rfl⟩, rfl⟩
  have hConsts : group.Lists .const .consts := by
    rcases hGroup with rfl | rfl <;>
      exact ⟨⟨_, rfl, rfl, rfl⟩, rfl⟩
  rcases hGroup with rfl | rfl
  · cases hForms with
    | bounds hFirst hSecond hThird hReqs =>
        have hReq : Section.bounds.Lists .req .reqs :=
          ⟨⟨_, rfl, rfl, rfl⟩, rfl⟩
        rw [hLifetimes.eq_filterMap views_param hFirst,
          hTypes.eq_filterMap views_param hSecond,
          hConsts.eq_filterMap views_param hThird,
          hReq.eq_filterMap views_traitBound hReqs]
        rfl
  · cases hForms with
    | gparams hFirst hSecond hThird =>
        have hNone :
            pieces.filterMap (Piece.part? .req traitBound?) =
              [] := by
          rw [List.filterMap_eq_nil_iff]
          intro piece hPiece
          cases hFits piece hPiece with
          | mark => rfl
          | @child _ _ tag _ _ _ hChild =>
              cases tag <;> cases hChild <;> rfl
        rw [hLifetimes.eq_filterMap views_param hFirst,
          hTypes.eq_filterMap views_param hSecond,
          hConsts.eq_filterMap views_param hThird]
        rw [ofPieces, hNone]

/- Parameters and requirements may be given again and again. -/
theorem setsOnce
    (hGroup : group = .bounds ∨ group = .gparams)
    (hFits : ∀ piece ∈ pieces, piece.Fits group) :
    group.SetsOnce (.ofPieces pieces) := by
  constructor
  · intro tag child hChild hSingle
    rcases hGroup with rfl | rfl <;>
      cases tag <;> cases hChild <;> cases hSingle
  · intro tag
    refine Nat.le_succ_of_le
      (Nat.le_of_eq (List.count_eq_zero.mpr ?_))
    intro hMark
    rcases List.mem_map.mp hMark with ⟨piece, hPiece, hEntry⟩
    cases hFits piece hPiece with
    | child => cases hEntry
    | mark _ hHas =>
        rcases hGroup with rfl | rfl <;> cases hHas

/-
  Bounds have all they must have, and the parameters of a
  function do if there is one at all.
-/
theorem isMetBy_iff
    (hGroup : group = .bounds ∨ group = .gparams)
    (hFits : ∀ piece ∈ pieces, piece.Fits group) :
    group.IsMetBy (.ofPieces pieces) ↔
      (group = .bounds ∨ pieces ≠ []) := by
  rcases hGroup with rfl | rfl
  · simp [Section.IsMetBy, Section.requirements]
  · constructor
    · intro hMet
      rcases hMet _ List.mem_cons_self with
        ⟨tag, _, fragment, hEntry⟩
      rcases List.mem_map.mp hEntry with ⟨piece, hPiece, _⟩
      exact .inr (List.ne_nil_of_mem hPiece)
    · rintro (hBounds | hSome) choices hChoices
      · cases hBounds
      · cases List.mem_singleton.mp hChoices
        rcases List.exists_mem_of_ne_nil pieces hSome with
          ⟨piece, hPiece⟩
        have hEntry :
            piece.entry ∈ (Draft.ofPieces pieces).entries :=
          List.mem_map_of_mem hPiece
        cases hFits piece hPiece with
        | mark _ hHas => cases hHas
        | @child _ _ tag fragment _ _ hChild =>
            refine ⟨tag, ?_, fragment, hEntry⟩
            cases tag <;> cases hChild <;> decide

/- What pieces of parameters form, if they form anything. -/
theorem forms_iff
    (hGroup : group = .bounds ∨ group = .gparams)
    (hFits : ∀ piece ∈ pieces, piece.Fits group) :
    group.Forms (.ofPieces pieces) fragment ↔
      (group = .bounds ∨ pieces ≠ []) ∧
        fragment = .generics (ofPieces pieces) := by
  have hTyped := Section.isTyped_ofPieces hFits
  rw [← isMetBy_iff hGroup hFits,
    ← Section.missing_eq_nil_iff hTyped]
  constructor
  · intro hForms
    exact ⟨Section.missing_of_forms hForms,
      eq_of_forms hGroup hFits hForms⟩
  · rintro ⟨hMissing, rfl⟩
    rcases Section.exists_forms hTyped (setsOnce hGroup hFits)
        hMissing with
      ⟨found, hForms⟩
    rw [← eq_of_forms hGroup hFits hForms]
    exact hForms

/- A piece of parameters is a parameter or a requirement. -/
theorem param_or_requirement
    (hGroup : group = .bounds ∨ group = .gparams)
    {piece : Piece}
    (hPiece : piece.Fits group) :
    (∃ opener inside tag param,
      piece = .child opener inside tag (.param param) ∧
        (tag = .lifetime ∨ tag = .type ∨ tag = .const)) ∨
      ∃ opener inside bound,
        piece =
          .child opener inside .req (.bound (.trait bound)) := by
  cases hPiece with
  | mark _ hHas =>
      rcases hGroup with rfl | rfl <;> cases hHas
  | @child opener inside tag fragment child hOpens hChild
      hDerives =>
      have hField :=
        Section.fits_of_child? hChild
          (Production.yields_of_derives hDerives)
      rcases hGroup with rfl | rfl <;>
        cases tag <;> cases hChild <;>
          rcases Option.isSome_iff_exists.mp hField with
            ⟨part, hPart⟩
      case child.inl.req.refl =>
        cases (views_traitBound.iff _ part).mp hPart
        exact .inr ⟨opener, inside, part, rfl⟩
      all_goals
        cases (views_param.iff _ part).mp hPart
        exact .inl ⟨opener, inside, _, part, rfl, by decide⟩

/-
  Each piece is one parameter or one requirement, and occurs
  once. The induction is on the pieces.
-/
theorem perm_ofPieces
    (hGroup : group = .bounds ∨ group = .gparams)
    (hFits : ∀ piece ∈ pieces, piece.Fits group) :
    (((ofPieces pieces).params.map Fragment.param ++
        (ofPieces pieces).requirements.map
          (Fragment.bound ∘ Bound.trait)).map some).Perm
      (pieces.map Piece.fragment?) := by
  induction pieces with
  | nil => exact .refl _
  | cons piece pieces ih =>
      rcases List.forall_mem_cons.mp hFits with
        ⟨hPiece, hPieces⟩
      have hRest := ih hPieces
      rw [List.perm_iff_count] at hRest ⊢
      intro found
      have hCount := hRest found
      rcases param_or_requirement hGroup hPiece with
        ⟨opener, inside, tag, param, rfl, hTag⟩ |
          ⟨opener, inside, bound, rfl⟩
      · rcases hTag with rfl | rfl | rfl <;>
        · simp [ofPieces, Piece.part?, Piece.hasTag,
            Piece.fragment?, param?, List.count_cons] at hCount ⊢
          omega
      · simp [ofPieces, Piece.part?, Piece.hasTag,
          Piece.fragment?, traitBound?, List.count_cons]
          at hCount ⊢
        omega

/-
  The generics are those of the child of a tag among the pieces,
  or none at all if there is no such child.
-/
inductive WrittenIn
    (tag : Tag)
    (inner : Section)
    (pieces : List Piece) :
    Generics → Prop
  | absent
      (hAbsent : ¬ tag.OccursIn (.ofPieces pieces)) :
      WrittenIn tag inner pieces {}
  | given
      {opener close : Token}
      {parts : List Piece}
      {fragment : Fragment}
      (hPiece :
        .child opener (parts.flatMap Piece.tokens ++ [close])
          tag fragment ∈ pieces)
      (hParts : ∀ part ∈ parts, part.Fits inner)
      (hClose : close.closes inner.closeTag.text) :
      WrittenIn tag inner pieces (ofPieces parts)

/- Generics that a section has are written in it. -/
theorem writtenIn_of_hasAtMostOne
    {inner : Section}
    (hInner : inner = .bounds ∨ inner = .gparams)
    {tag : Tag}
    {field : Field}
    (hLists : group.Lists tag field)
    (hInside :
      ∀ child ∈ group.child? tag,
        child.production = .ofSection inner)
    (hFits : ∀ piece ∈ pieces, piece.Fits group)
    {found : Option Generics}
    (hFound :
      (Draft.ofPieces pieces).HasAtMostOne group field
        .generics found) :
    (found.getD {}).WrittenIn tag inner pieces := by
  have hValues := hLists.values_ofPieces pieces
  rw [Draft.HasAtMostOne] at hFound
  cases found with
  | none =>
      refine .absent ?_
      have hEmpty := Section.values_eq_nil_iff.mp hFound
      exact hEmpty tag (by rw [hLists.alone]; simp)
  | some generics =>
      have hMem :
          .generics generics ∈
            (pieces.filter (·.hasTag tag)).filterMap
              Piece.fragment? := by
        rw [← hValues, hFound]
        simp
      rcases List.mem_filterMap.mp hMem with
        ⟨piece, hKept, hFragment⟩
      rcases List.mem_filter.mp hKept with ⟨hPiece, hTag⟩
      cases piece with
      | mark token other => cases hFragment
      | child opener inside other fragment =>
          cases hFragment
          have hSame : other = tag := by
            simpa [Piece.hasTag] using hTag
          subst hSame
          rcases hLists.found with ⟨child, hChild, _, _⟩
          have hDerives := (hFits _ hPiece).derives hChild
          rw [hInside child hChild] at hDerives
          rcases Production.exists_fits_of_derives hDerives with
            ⟨parts, close, rfl, hParts, _, hForms, hClose⟩
          have hGenerics := eq_of_forms hInner hParts hForms
          cases hGenerics
          exact .given hPiece hParts hClose

end Generics

------------------------------------------------------------
-- Printed Lines
------------------------------------------------------------

/- Texts between an opening and a closing text, if any. -/
def enclosed
    (opening separator closing : String)
    (texts : List String) :
    String :=
  if texts.isEmpty then
    ""
  else
    opening ++ separator.intercalate texts ++ closing

/- The parameters in angle brackets, as they are ordered. -/
def Generics.paramText
    (generics : Generics) :
    String :=
  enclosed "<" ", " ">"
    (generics.params.map GenericParam.toRust)

/- The requirements after a colon, as they are ordered. -/
def Generics.requirementText
    (generics : Generics) :
    String :=
  enclosed ": " " + " ""
    (generics.requirements.map TraitBound.toRust)

/- The printed parameters are enclosed in their order. -/
theorem GenericParam.listToRust_eq
    (params : List GenericParam) :
    listToRust params =
      enclosed "<" ", " ">" (params.map toRust) := by
  cases params <;> rfl

/- The printed requirements are enclosed in their order. -/
theorem TraitBound.afterColon_eq
    (bounds : List TraitBound) :
    afterColon listToRust bounds =
      enclosed ": " " + " "" (bounds.map toRust) := by
  cases bounds with
  | nil => rfl
  | cons bound bounds =>
      simp [afterColon, listToRust, enclosed]

/-
  The lines start with a text at a depth. It stands at the start
  of the first line, in front of a semicolon or of the opening
  of a body, or alone in front of clauses.
-/
def Line.Begin
    (depth : Nat)
    (text : String)
    (lines : List Line) : Prop :=
  ∃ tail rest,
    lines = ⟨depth, text ++ tail⟩ :: rest ∧
      tail ∈ ["", ";", " \x7b", " \x7b\x7d"]

namespace Line.Begin

/- An item without a body starts with its head. -/
theorem bodylessLines
    (head : String)
    (clauses : List WhereClause) :
    Begin 0 head (bodylessLines head clauses) := by
  cases clauses with
  | nil => exact ⟨";", [], rfl, by decide⟩
  | cons clause clauses =>
      exact ⟨"", _, by rw [String.append_empty]; rfl,
        by decide⟩

/- An item with a body starts with its head. -/
theorem openingLines
    (head : String)
    {opening : String}
    (hOpening : opening = "\x7b" ∨ opening = "\x7b\x7d")
    (clauses : List WhereClause) :
    Begin 0 head (openingLines head opening clauses) := by
  cases clauses with
  | nil =>
      refine ⟨" " ++ opening, [], ?_, ?_⟩
      · simp [TraitMarkup.openingLines, String.append_assoc]
      · rcases hOpening with rfl | rfl <;> decide
  | cons clause clauses =>
      exact ⟨"", _, by rw [String.append_empty]; rfl,
        by decide⟩

/- More lines behind do not change the start. -/
theorem append
    {depth : Nat}
    {text : String}
    {lines : List Line}
    (hBegin : Begin depth text lines)
    (more : List Line) :
    Begin depth text (lines ++ more) := by
  rcases hBegin with ⟨tail, rest, rfl, hTail⟩
  exact ⟨tail, rest ++ more, rfl, hTail⟩

/- Lines one level deeper start with the same text. -/
theorem deeper
    {depth : Nat}
    {text : String}
    {lines : List Line}
    (hBegin : Begin depth text lines) :
    Begin (depth + 1) text (lines.map Line.deeper) := by
  rcases hBegin with ⟨tail, rest, rfl, hTail⟩
  exact ⟨tail, rest.map Line.deeper, rfl, hTail⟩

end Line.Begin

/- The head of a function, around its parameters. -/
theorem AssocFn.exists_head
    (item : AssocFn) :
    ∃ words args,
      item.head =
        words ++ "fn " ++ item.name.text
          ++ GenericParam.listToRust item.params
          ++ "(" ++ args := by
  have hHead :
      ∃ ret,
        item.head =
          item.qualifiers.toRust ++ "fn " ++ item.name.text
            ++ GenericParam.listToRust item.params ++ "("
            ++ String.intercalate ", "
              (item.args.map FnParam.toRust)
            ++ ")" ++ ret :=
    ⟨_, rfl⟩
  rcases hHead with ⟨ret, hHead⟩
  refine ⟨item.qualifiers.toRust,
    String.intercalate ", " (item.args.map FnParam.toRust)
      ++ (")" ++ ret), ?_⟩
  rw [hHead, String.append_assoc, String.append_assoc]

/- An associated function starts with its head. -/
theorem AssocFn.begin_lines
    (item : AssocFn) :
    Line.Begin 0 item.head item.lines := by
  unfold lines
  split
  · exact .bodylessLines _ _
  · split
    · exact .openingLines _ (.inr rfl) _
    · exact (Line.Begin.openingLines _ (.inl rfl) _).append _

------------------------------------------------------------
-- Printed Items
------------------------------------------------------------

namespace Piece

/-
  The block prints the associated type of the piece. It starts
  with the name, the parameters and the requirements of its
  bounds section.
-/
inductive PrintsType : Piece → List Line → Prop
  | intro
      {opener close : Token}
      {parts : List Piece}
      {item : AssocType}
      {generics : Generics}
      {block : List Line}
      (hParts : ∀ part ∈ parts, part.Fits .assocType)
      (hOnce : Section.assocType.SetsOnce (.ofPieces parts))
      (hGenerics : generics.WrittenIn .bounds .bounds parts)
      (hBlock :
        Line.Begin 1
          ("type " ++ item.name.text ++ generics.paramText
            ++ generics.requirementText)
          block) :
      PrintsType
        (.child opener
          (parts.flatMap Piece.tokens ++ [close])
          .assocType (.assocType item))
        block

/-
  The block prints the associated function of the piece. It
  starts with the name and with the parameters of its own
  section of them.
-/
inductive PrintsFn : Piece → List Line → Prop
  | intro
      {opener close : Token}
      {parts : List Piece}
      {item : AssocFn}
      {generics : Generics}
      {block : List Line}
      {words args : String}
      (hParts : ∀ part ∈ parts, part.Fits .assocFn)
      (hOnce : Section.assocFn.SetsOnce (.ofPieces parts))
      (hGenerics : generics.WrittenIn .gparams .gparams parts)
      (hBlock :
        Line.Begin 1
          (words ++ "fn " ++ item.name.text
            ++ generics.paramText ++ "(" ++ args)
          block) :
      PrintsFn
        (.child opener
          (parts.flatMap Piece.tokens ++ [close])
          .assocFn (.assocFn item))
        block

/- An associated type is printed with its own generics. -/
theorem printsType_of_fits
    {opener : Token}
    {inside : List Token}
    {item : AssocType}
    (hFits :
      (child opener inside .assocType
        (.assocType item)).Fits .trait) :
    PrintsType
      (child opener inside .assocType (.assocType item))
      (item.lines.map Line.deeper) := by
  rcases Production.exists_fits_of_derives
      (hFits.derives rfl) with
    ⟨parts, close, rfl, hParts, hOnce, hForms, _⟩
  cases hForms with
  | @assocType _ _ generics _ _ hGenerics hParams hBounds =>
      have hLists : Section.assocType.Lists .bounds .bounds :=
        ⟨⟨_, rfl, rfl, rfl⟩, rfl⟩
      have hWritten :=
        Generics.writtenIn_of_hasAtMostOne (.inl rfl) hLists
          (by rintro child ⟨⟩; rfl) hParts hGenerics
      have hHead :
          item.head =
            "type " ++ item.name.text
              ++ (generics.getD {}).paramText
              ++ (generics.getD {}).requirementText := by
        rw [AssocType.head, hParams, hBounds,
          GenericParam.listToRust_eq, TraitBound.afterColon_eq]
        rfl
      refine .intro hParts hOnce hWritten ?_
      rw [← hHead]
      exact (Line.Begin.bodylessLines _ _).deeper

/- An associated function is printed with its own parameters. -/
theorem printsFn_of_fits
    {opener : Token}
    {inside : List Token}
    {item : AssocFn}
    (hFits :
      (child opener inside .assocFn
        (.assocFn item)).Fits .trait) :
    PrintsFn
      (child opener inside .assocFn (.assocFn item))
      (item.lines.map Line.deeper) := by
  rcases Production.exists_fits_of_derives
      (hFits.derives rfl) with
    ⟨parts, close, rfl, hParts, hOnce, hForms, _⟩
  cases hForms with
  | @assocFn _ _ generics _ _ _ _ _ hGenerics hParams =>
      have hLists : Section.assocFn.Lists .gparams .gparams :=
        ⟨⟨_, rfl, rfl, rfl⟩, rfl⟩
      have hWritten :=
        Generics.writtenIn_of_hasAtMostOne (.inr rfl) hLists
          (by rintro child ⟨⟩; rfl) hParts hGenerics
      rcases item.exists_head with ⟨words, args, hHead⟩
      rw [hParams, GenericParam.listToRust_eq] at hHead
      have hBegin := item.begin_lines.deeper
      rw [hHead] at hBegin
      exact .intro hParts hOnce hWritten hBegin

end Piece

namespace TraitDecl

/-
  A trait made of pieces is printed in blocks. The first block
  starts with the parameters and requirements of its bounds
  section; then come a block for each associated type, the
  constants, and a block for each associated function.
-/
structure PrintedFrom
    (decl : TraitDecl)
    (pieces : List Piece)
    (opening : List Line)
    (typeBlocks : List (List Line))
    (constLines : List Line)
    (fnBlocks : List (List Line))
    (closing : List Line) : Prop where
  render :
    ∀ layout,
      decl.render layout =
        layout.render
          (opening ++ typeBlocks.flatten ++ constLines
            ++ fnBlocks.flatten ++ closing)
  header :
    ∃ words generics,
      Generics.WrittenIn .bounds .bounds pieces generics ∧
        Line.Begin 0
          (words ++ "trait " ++ decl.name.text
            ++ generics.paramText ++ generics.requirementText)
          opening
  types :
    List.Forall₂ Piece.PrintsType
      (pieces.filter (·.hasTag .assocType)) typeBlocks
  fns :
    List.Forall₂ Piece.PrintsFn
      (pieces.filter (·.hasTag .assocFn)) fnBlocks

/- The lines of a trait, block by block. -/
theorem lines_eq
    (decl : TraitDecl) :
    ∃ opening closing,
      Line.Begin 0 decl.header opening ∧
        decl.lines =
          opening
            ++ (decl.types.map fun item =>
              item.lines.map Line.deeper).flatten
            ++ (decl.consts.flatMap
              AssocConst.lines).map Line.deeper
            ++ (decl.fns.map fun item =>
              item.lines.map Line.deeper).flatten
            ++ closing := by
  have hItems :
      decl.itemLines.map Line.deeper =
        (decl.types.map fun item =>
            item.lines.map Line.deeper).flatten
          ++ (decl.consts.flatMap
            AssocConst.lines).map Line.deeper
          ++ (decl.fns.map fun item =>
            item.lines.map Line.deeper).flatten := by
    simp [itemLines, List.flatMap, List.map_flatten,
      Function.comp_def]
  unfold lines
  split
  · rename_i hNone
    rw [hNone, List.map_nil] at hItems
    refine ⟨_, [],
      .openingLines decl.header (.inr rfl) decl.clauses, ?_⟩
    rw [List.append_assoc _ _ [], List.append_nil,
      List.append_assoc, List.append_assoc,
      ← List.append_assoc (List.flatten _), ← hItems,
      List.append_nil]
  · rename_i hSome
    refine ⟨_, [⟨0, "\x7d"⟩],
      .openingLines decl.header (.inl rfl) decl.clauses, ?_⟩
    rw [← hSome, hItems]
    simp only [List.append_assoc]

/- A trait that is formed of pieces is printed from them. -/
theorem printedFrom_of_forms
    {decl : TraitDecl}
    {pieces : List Piece}
    (hFits : ∀ piece ∈ pieces, piece.Fits .trait)
    (hForms :
      Section.trait.Forms (.ofPieces pieces) (.trait decl)) :
    ∃ opening typeBlocks constLines fnBlocks closing,
      decl.PrintedFrom pieces opening typeBlocks constLines
        fnBlocks closing := by
  rcases decl.lines_eq with
    ⟨opening, closing, hOpening, hLines⟩
  cases hForms with
  | @trait _ _ generics _ _ _ _ hGenerics hParams hReqs _ _
      hTypes _ hFns =>
      have hLists : Section.trait.Lists .bounds .bounds :=
        ⟨⟨_, rfl, rfl, rfl⟩, rfl⟩
      have hTypeLists : Section.trait.Lists .assocType .types :=
        ⟨⟨_, rfl, rfl, rfl⟩, rfl⟩
      have hFnLists : Section.trait.Lists .assocFn .fns :=
        ⟨⟨_, rfl, rfl, rfl⟩, rfl⟩
      have hWritten :=
        Generics.writtenIn_of_hasAtMostOne (.inl rfl) hLists
          (by rintro child ⟨⟩; rfl) hFits hGenerics
      have hHeader :
          ∃ words,
            decl.header =
              words ++ "trait " ++ decl.name.text
                ++ GenericParam.listToRust decl.params
                ++ afterColon TraitBound.listToRust
                  decl.requirements :=
        ⟨_, rfl⟩
      rcases hHeader with ⟨words, hHeader⟩
      rw [hHeader, hParams, hReqs, GenericParam.listToRust_eq,
        TraitBound.afterColon_eq] at hOpening
      refine ⟨opening, _, _, _, closing,
        fun layout => congrArg layout.render hLines,
        ⟨words, _, hWritten, hOpening⟩, ?_, ?_⟩
      · rw [List.forall₂_map_right_iff]
        refine (hTypeLists.forall₂ hFits hTypes).imp ?_
        rintro piece item ⟨opener, inside, rfl, hPiece⟩
        exact Piece.printsType_of_fits hPiece
      · rw [List.forall₂_map_right_iff]
        refine (hFnLists.forall₂ hFits hFns).imp ?_
        rintro piece item ⟨opener, inside, rfl, hPiece⟩
        exact Piece.printsFn_of_fits hPiece

end TraitDecl

------------------------------------------------------------
-- One Order
------------------------------------------------------------

/-
  Generic parameters come out in one order. A section of them
  hands over its lifetimes, then its types, then its constants,
  each kind in source order, and its requirements in source
  order; every part of it is there once. A text that declares a
  trait is printed with the parameters and requirements of the
  trait and of each associated type, and with the parameters of
  each associated function, in that order.
-/
theorem Generics.ordering :
    (∀ (group : Section)
        (frames : Frames)
        (before : List Token)
        (pieces : List Piece)
        (close : Token),
      group = .bounds ∨ group = .gparams →
        (∀ piece ∈ pieces, piece.Fits group) →
          close.closes group.closeTag.text →
            (∀ fragment,
              group.DeliversAt frames before pieces close
                  fragment ↔
                (group = .bounds ∨ pieces ≠ []) ∧
                  fragment = .generics (ofPieces pieces)) ∧
            (((ofPieces pieces).params.map Fragment.param ++
                (ofPieces pieces).requirements.map
                  (Fragment.bound ∘ Bound.trait)).map
                    some).Perm
              (pieces.map Piece.fragment?)) ∧
    (∀ (file : Option String)
        (text : String)
        (decl : TraitDecl),
      TraitDecl.ofText file text = .ok decl →
        ∃ opener pieces close,
          readTokens file text =
              .ok (opener ::
                (pieces.flatMap Piece.tokens ++ [close])) ∧
            (∀ piece ∈ pieces, piece.Fits .trait) ∧
            Section.trait.SetsOnce (.ofPieces pieces) ∧
            ∃ opening typeBlocks constLines fnBlocks closing,
              decl.PrintedFrom pieces opening typeBlocks
                constLines fnBlocks closing) := by
  constructor
  · intro group frames before pieces close hGroup hFits hClose
    refine ⟨fun fragment => ?_, perm_ofPieces hGroup hFits⟩
    rw [Section.deliversAt_iff hFits (setsOnce hGroup hFits)
      hClose, forms_iff hGroup hFits]
  · intro file text decl hText
    unfold TraitDecl.ofText at hText
    split at hText
    · cases hText
    · rename_i tokens hTokens
      rcases TraitDecl.derivedFrom_of_ofTokens hText with
        ⟨opener, inside, rfl, _, hDerives⟩
      rcases Production.exists_fits_of_derives hDerives with
        ⟨pieces, close, rfl, hFits, hOnce, hForms, _⟩
      exact ⟨opener, pieces, close, hTokens, hFits, hOnce,
        TraitDecl.printedFrom_of_forms hFits hForms⟩

/-
  A type in front of a lifetime: they change places, in the
  section itself and in the text of a trait that has it.
-/
theorem Generics.ordering_type_and_lifetime :
    let word : Token := ⟨.ident, "T", false, {}⟩
    let mark : Token := ⟨.lifetime, "'a", false, {}⟩
    let type : Piece :=
      .child (.ofOpenTag "type")
        [.ofOpenTag "name", word, .ofCloseTag "name",
          .ofCloseTag "type"]
        .type (.param (.type word []))
    let lifetime : Piece :=
      .child (.ofOpenTag "lifetime")
        [.ofOpenTag "name", mark, .ofCloseTag "name",
          .ofCloseTag "lifetime"]
        .lifetime (.param (.lifetime mark []))
    let text :=
      "<trait><name>A</name><bounds><type><name>T</name></type>" ++
        "<req>B</req><lifetime><name>'a</name></lifetime>" ++
        "</bounds></trait>"
    Section.gparams.DeliversAt
        [⟨"assocfn", "gparams", .empty⟩] [] [type, lifetime]
        (.ofCloseTag "gparams")
        (.generics ⟨[.lifetime mark [], .type word []], []⟩) ∧
      ∃ decl,
        TraitDecl.ofText none text = .ok decl ∧
          decl.header = "trait A<'a, T>: B" ∧
          ∃ opener pieces close,
            readTokens none text =
                .ok (opener ::
                  (pieces.flatMap Piece.tokens ++ [close])) ∧
              ∃ opening typeBlocks constLines fnBlocks closing,
                decl.PrintedFrom pieces opening typeBlocks
                  constLines fnBlocks closing := by
  intro word mark type lifetime text
  rcases Generics.ordering with ⟨hSections, hTexts⟩
  let name : Piece :=
    .child (.ofOpenTag "name") [word, .ofCloseTag "name"] .name
      (.token word)
  let markName : Piece :=
    .child (.ofOpenTag "name") [mark, .ofCloseTag "name"] .name
      (.token mark)
  have hName : ∀ piece ∈ [name], piece.Fits .typeParam :=
    List.forall_mem_singleton.mpr
      (.child (by decide) rfl
        (.leaf (by simp [Code.IsContent, word]) (.name rfl)
          (by decide)))
  have hMark : ∀ piece ∈ [markName], piece.Fits .lifetimeParam :=
    List.forall_mem_singleton.mpr
      (.child (by decide) rfl
        (.leaf (by simp [Code.IsContent, mark])
          (.lifetimeName rfl) (by decide)))
  have hType : type.Fits .gparams :=
    .child (by decide) rfl
      (Production.derives_of_fits hName
        (Section.setsOnce_singleton _ _) (.typeParam rfl rfl)
        (by decide))
  have hLifetime : lifetime.Fits .gparams :=
    .child (by decide) rfl
      (Production.derives_of_fits hMark
        (Section.setsOnce_singleton _ _) (.lifetimeParam rfl rfl)
        (by decide))
  have hFits : ∀ piece ∈ [type, lifetime], piece.Fits .gparams := by
    simp [hType, hLifetime]
  refine ⟨?_, ?_⟩
  · exact ((hSections .gparams _ [] _ _ (.inr rfl) hFits
      (by decide)).1 _).mpr ⟨.inr (List.cons_ne_nil _ _), rfl⟩
  · have hRead :
        (TraitDecl.ofText none text).map TraitDecl.header =
          .ok "trait A<'a, T>: B" := by
      decide +kernel
    cases hText : TraitDecl.ofText none text with
    | error fault =>
        rw [hText] at hRead
        cases hRead
    | ok decl =>
        rw [hText] at hRead
        rcases hTexts none text decl hText with
          ⟨opener, pieces, close, hTokens, _, _, hPrinted⟩
        exact ⟨decl, rfl, Except.ok.inj hRead, opener, pieces,
          close, hTokens, hPrinted⟩

end TraitMarkup
