import Mathlib.Data.List.Forall2
import TraitMarkup.Proofs.Completion
import TraitMarkup.Proofs.Omission
import TraitMarkup.Proofs.Rearrangement

/-
  What a report of missing children names.

  A section that is closed too early names the children it
  misses. The report is complete: each requirement that is not
  met is there, with all tags that would meet it. Whoever adds
  a child for each of them, wherever it is put, gets the section
  closed.

  There is one exception. A lifetime clause that has neither its
  lifetime nor a bound names the lifetime only, and asks for the
  bound when it has got the lifetime.

  Key definitions include:
    * `Section.unmet`
    * `Section.reported`
    * `Section.Overlooks`
    * `Piece.Meets`
    * `Section.Supplement`
    * `Section.ReportsAt`

  Main declarations:
    * `Section.missing_eq_reported`
    * `Section.missing_of_overlooks`
    * `Section.Supplement.exists_deliversAt`
    * `Section.reportsAt_of_lifetime`
    * `Section.omission_report`
-/

namespace TraitMarkup

------------------------------------------------------------
-- Requirements That Are Not Met
------------------------------------------------------------

/- The entry is a child of the tag. -/
def Entry.isChild
    (tag : Tag) :
    Entry → Bool
  | child other _ => other = tag
  | mark _ => false

instance
    (tag : Tag)
    (draft : Draft) :
    Decidable (tag.OccursIn draft) :=
  decidable_of_iff (draft.entries.any (Entry.isChild tag)) (by
    rw [List.any_eq_true]
    constructor
    · rintro ⟨entry, hEntry, hChild⟩
      cases entry with
      | child other fragment =>
          cases of_decide_eq_true hChild
          exact ⟨fragment, hEntry⟩
      | mark other => cases hChild
    · rintro ⟨fragment, hEntry⟩
      exact ⟨_, hEntry, decide_eq_true rfl⟩)

namespace Section

/- The requirements that no child of the draft meets. -/
def unmet
    (group : Section)
    (draft : Draft) :
    List (List Tag) :=
  group.requirements.filter fun choices =>
    choices.all fun tag => ¬ tag.OccursIn draft

/-
  The tags by which a requirement is reported: all that would
  meet it. The argument of a parameter is reported as a name.
-/
def reported : Section → List Tag → List Tag
  | param, choices => choices.filter (· ≠ .pat)
  | _, choices => choices

/- A lifetime clause that has no children. -/
def Overlooks
    (group : Section)
    (draft : Draft) : Prop :=
  group = .lifetimeClause ∧
    ¬ Tag.lifetime.OccursIn draft ∧
    ¬ Tag.lifetimeBound.OccursIn draft

theorem mem_unmet
    {group : Section}
    {draft : Draft}
    {choices : List Tag} :
    choices ∈ group.unmet draft ↔
      choices ∈ group.requirements ∧
        ∀ tag ∈ choices, ¬ tag.OccursIn draft := by
  simp [unmet]

/- The fields of a requirement have no values. -/
def lacks
    (group : Section)
    (draft : Draft)
    (fields : List Field) :
    Bool :=
  fields.all fun field => (draft.values group field).isEmpty

/- What is not met are required fields without a value. -/
theorem unmet_eq
    (group : Section)
    (draft : Draft) :
    group.unmet draft =
      (group.requiredFields.filter (group.lacks draft)).map
        (·.flatMap group.fillers) := by
  rw [unmet, requirements_eq, List.filter_map]
  congr 2
  funext fields
  rw [Bool.eq_iff_iff]
  simp only [Function.comp_apply, lacks, List.all_eq_true,
    List.mem_flatMap, decide_eq_true_eq, List.isEmpty_iff,
    values_eq_nil_iff]
  constructor
  · intro hAbsent field hField tag hTag
    exact hAbsent tag ⟨field, hField, hTag⟩
  · rintro hAbsent tag ⟨field, hField, hTag⟩
    exact hAbsent field hField tag hTag

/- What a section asks for, one requirement after the other. -/
theorem missing_eq_flatMap
    {group : Section}
    {draft : Draft}
    (hTyped : group.IsTyped draft)
    (hOther : group ≠ .lifetimeClause) :
    group.missing draft =
      group.requiredFields.flatMap fun fields =>
        askFor (group.reported (fields.flatMap group.fillers))
          (!group.lacks draft fields) := by
  have hHas := hTyped.isSome_value?
  cases group <;>
    first
    | contradiction
    | simp only [missing, requiredFields, lacks, hHas,
        List.flatMap_cons, List.flatMap_nil, List.all_cons,
        List.all_nil, Bool.and_true, Bool.not_and,
        Bool.or_assoc, List.append_nil]
      <;> rfl

/- A lifetime clause without children has two empty fields. -/
theorem overlooks_iff
    {draft : Draft} :
    lifetimeClause.Overlooks draft ↔
      draft.values lifetimeClause .lifetime = [] ∧
        draft.values lifetimeClause .bounds = [] := by
  have hLifetime :
      fillers lifetimeClause .lifetime = [.lifetime] :=
    rfl
  have hBounds :
      fillers lifetimeClause .bounds = [.lifetimeBound] :=
    rfl
  simp [Overlooks, values_eq_nil_iff, hLifetime, hBounds]

/- The report of a section that overlooks nothing is complete. -/
theorem missing_eq_reported
    {group : Section}
    {draft : Draft}
    (hTyped : group.IsTyped draft)
    (hNotices : ¬ group.Overlooks draft) :
    group.missing draft =
      (group.unmet draft).flatMap group.reported := by
  rw [unmet_eq]
  by_cases hClause : group = .lifetimeClause
  · subst hClause
    have hHas := hTyped.isSome_value?
    rw [overlooks_iff, ← List.isEmpty_iff, ← List.isEmpty_iff]
      at hNotices
    simp only [missing, requiredFields, lacks, hHas,
      List.filter_cons, List.filter_nil, List.all_cons,
      List.all_nil, Bool.and_true]
    generalize (draft.values _ .lifetime).isEmpty = noLifetime
      at hNotices ⊢
    generalize (draft.values _ .bounds).isEmpty = noBound
      at hNotices ⊢
    cases noLifetime with
    | false => cases noBound <;> rfl
    | true =>
        cases noBound with
        | false => rfl
        | true => exact absurd ⟨rfl, rfl⟩ hNotices
  · rw [missing_eq_flatMap hTyped hClause]
    induction group.requiredFields with
    | nil => rfl
    | cons fields rest ih =>
        rw [List.flatMap_cons, ih]
        cases hLacks : group.lacks draft fields with
        | false => simp [askFor, hLacks]
        | true => simp [askFor, hLacks]

/- A lifetime clause without children asks for its lifetime. -/
theorem missing_of_overlooks
    {group : Section}
    {draft : Draft}
    (hTyped : group.IsTyped draft)
    (hOverlooks : group.Overlooks draft) :
    group.missing draft = [.lifetime] ∧
      group.unmet draft = [[.lifetime], [.lifetimeBound]] := by
  rcases hOverlooks with ⟨rfl, hLifetime, hBound⟩
  have hEmpty :=
    (overlooks_iff.mp ⟨rfl, hLifetime, hBound⟩).1
  constructor
  · simp [missing, hTyped.isSome_value?, hEmpty]
  · simp [unmet, requirements, hLifetime, hBound]

end Section

------------------------------------------------------------
-- Supplying What Is Missing
------------------------------------------------------------

/- The piece is a child of one of the tags. -/
inductive Piece.Meets :
    List Tag → Piece → Prop
  | intro
      {choices : List Tag}
      {tag : Tag}
      (hTag : tag ∈ choices)
      (opener : Token)
      (inside : List Token)
      (fragment : Fragment) :
      Meets choices (.child opener inside tag fragment)

/-
  The pieces are one more child for each requirement that is not
  met.
-/
structure Section.Supplement
    (group : Section)
    (pieces more : List Piece) : Prop where
  fits : ∀ piece ∈ more, piece.Fits group
  meets :
    List.Forall₂ Piece.Meets (group.unmet (.ofPieces pieces))
      more

namespace Section

/- The field that the tag fills in the section. -/
def fieldOf?
    (group : Section)
    (tag : Tag) :
    Option Field :=
  (group.child? tag).map Child.field

/- Different requirements are about different fields. -/
theorem requirements_apart
    (group : Section) :
    group.requirements.Pairwise fun choices others =>
      ∀ tag ∈ choices, ∀ other ∈ others,
        group.fieldOf? tag ≠ group.fieldOf? other := by
  cases group <;> decide

/- A field is empty when a requirement on it is not met. -/
theorem values_eq_nil_of_unmet
    {group : Section}
    {draft : Draft}
    {choices : List Tag}
    (hUnmet : choices ∈ group.unmet draft)
    {tag : Tag}
    (hTag : tag ∈ choices)
    {child : Child}
    (hChild : group.child? tag = some child) :
    draft.values group child.field = [] := by
  rw [unmet_eq] at hUnmet
  rcases List.mem_map.mp hUnmet with ⟨fields, hFields, rfl⟩
  rcases List.mem_flatMap.mp hTag with ⟨field, hField, hFills⟩
  rcases mem_fillers.mp hFills with ⟨other, hOther, rfl⟩
  cases hChild.symm.trans hOther
  have hLacks := (List.mem_filter.mp hFields).2
  simpa using List.all_eq_true.mp hLacks _ hField

/-
  Children that meet different requirements are taken in one
  after the other. The fields of those that are still to come
  stay empty.
-/
theorem setsOnce_append
    {group : Section}
    {requirements : List (List Tag)}
    {pieces more : List Piece}
    (hApart :
      requirements.Pairwise fun choices others =>
        ∀ tag ∈ choices, ∀ other ∈ others,
          group.fieldOf? tag ≠ group.fieldOf? other)
    (hEmpty :
      ∀ choices ∈ requirements, ∀ tag ∈ choices,
        ∀ child, group.child? tag = some child →
          (Draft.ofPieces pieces).values group child.field =
            [])
    (hMeets : List.Forall₂ Piece.Meets requirements more)
    (hFits : ∀ piece ∈ pieces ++ more, piece.Fits group)
    (hOnce : group.SetsOnce (.ofPieces pieces)) :
    group.SetsOnce (.ofPieces (pieces ++ more)) := by
  induction hMeets generalizing pieces with
  | nil => simpa using hOnce
  | @cons choices piece requirements more hMeet _ ih =>
      rcases List.pairwise_cons.mp hApart with ⟨hFirst, hRest⟩
      rw [List.append_cons] at hFits ⊢
      have hPiece : piece.Fits group := hFits piece (by simp)
      have hOld : ∀ piece ∈ pieces, piece.Fits group :=
        fun other hOther => hFits other (by simp [hOther])
      rcases hMeet with ⟨hTag, opener, inside, fragment⟩
      rename_i tag
      cases hPiece with
      | @child _ _ _ _ child _ hChild _ =>
          have hNone :=
            hEmpty _ List.mem_cons_self tag hTag child hChild
          refine ih hRest ?_ hFits
            (hOnce.concat_child hOld hChild hNone opener inside
              fragment)
          intro others hOthers other hOther kind hKind
          have hField : child.field ≠ kind.field := by
            intro hSame
            refine hFirst others hOthers tag hTag other hOther
              ?_
            simp [fieldOf?, hChild, hKind, hSame]
          rw [Draft.ofPieces_concat pieces rfl, Draft.values_add,
            hEmpty others (List.mem_cons_of_mem _ hOthers) other
              hOther kind hKind]
          simp [Piece.entry, Entry.value?, hChild, hField]

variable {group : Section}
variable {pieces more : List Piece}

/- What is supplied gives no part twice. -/
theorem Supplement.setsOnce
    (hMore : group.Supplement pieces more)
    (hFits : ∀ piece ∈ pieces, piece.Fits group)
    (hOnce : group.SetsOnce (.ofPieces pieces)) :
    group.SetsOnce (.ofPieces (pieces ++ more)) := by
  refine setsOnce_append ?_ ?_ hMore.meets
    (List.forall_mem_append.mpr ⟨hFits, hMore.fits⟩) hOnce
  · exact group.requirements_apart.sublist
      List.filter_sublist
  · intro choices hChoices tag hTag child hChild
    exact values_eq_nil_of_unmet hChoices hTag hChild

/- Of what is supplied, one child is for each requirement. -/
theorem exists_meets
    {requirements : List (List Tag)}
    (hMeets : List.Forall₂ Piece.Meets requirements more)
    {choices : List Tag}
    (hChoices : choices ∈ requirements) :
    ∃ piece ∈ more, piece.Meets choices := by
  induction hMeets with
  | nil => cases hChoices
  | cons hMeet _ ih =>
      rcases List.mem_cons.mp hChoices with rfl | hChoices
      · exact ⟨_, List.mem_cons_self, hMeet⟩
      · rcases ih hChoices with ⟨piece, hPiece, hFound⟩
        exact ⟨piece, List.mem_cons_of_mem _ hPiece, hFound⟩

/- What is supplied meets all requirements. -/
theorem Supplement.isMetBy
    (hMore : group.Supplement pieces more) :
    group.IsMetBy (.ofPieces (pieces ++ more)) := by
  intro choices hChoices
  simp only [Tag.OccursIn, Draft.ofPieces, List.map_append,
    List.mem_append]
  by_cases hUnmet : choices ∈ group.unmet (.ofPieces pieces)
  · rcases exists_meets hMore.meets hUnmet with
      ⟨piece, hPiece, hTag, opener, inside, fragment⟩
    rename_i tag
    exact ⟨tag, hTag, fragment,
      .inr (List.mem_map.mpr ⟨_, hPiece, rfl⟩)⟩
  · rw [mem_unmet] at hUnmet
    push Not at hUnmet
    rcases hUnmet hChoices with ⟨tag, hTag, fragment, hEntry⟩
    exact ⟨tag, hTag, fragment, .inl hEntry⟩

/- For each requirement there is a child that meets it. -/
theorem exists_fits_meets
    (group : Section)
    (choices : List Tag)
    (hChoices : choices ∈ group.requirements) :
    ∃ piece : Piece, piece.Fits group ∧ piece.Meets choices := by
  have hTag : ∃ tag ∈ choices, tag ∈ group.required := by
    revert choices
    cases group <;> decide
  rcases hTag with ⟨tag, hTag, hRequired⟩
  rcases Production.exists_derives_required group tag hRequired
    with ⟨child, hChild, inside, fragment, hDerives⟩
  exact ⟨.child tag.opening inside tag fragment,
    .child tag.opens_opening hChild hDerives,
    .intro hTag _ _ _⟩

/- What is missing can always be supplied. -/
theorem exists_supplement
    (group : Section)
    (pieces : List Piece) :
    ∃ more, group.Supplement pieces more := by
  have : Nonempty Piece :=
    ⟨.child Leaf.filler [] .name (.token Leaf.filler)⟩
  choose! piece hFits hMeets using group.exists_fits_meets
  refine ⟨(group.unmet (.ofPieces pieces)).map piece, ?_, ?_⟩
  · simp only [List.forall_mem_map, mem_unmet]
    exact fun choices hChoices => hFits choices hChoices.1
  · simp only [List.forall₂_map_right_iff, List.forall₂_same,
      mem_unmet]
    exact fun choices hChoices => hMeets choices hChoices.1

/- Requirements are met in any order. -/
theorem IsMetBy.of_perm
    {left right : Draft}
    (hMet : group.IsMetBy left)
    (hPerm : left.entries.Perm right.entries) :
    group.IsMetBy right := by
  intro choices hChoices
  rcases hMet choices hChoices with
    ⟨tag, hTag, fragment, hEntry⟩
  exact ⟨tag, hTag, fragment, hPerm.mem_iff.mp hEntry⟩

/- A section with all that was missing, in any order, is closed. -/
theorem Supplement.exists_deliversAt
    (hMore : group.Supplement pieces more)
    (hFits : ∀ piece ∈ pieces, piece.Fits group)
    (hOnce : group.SetsOnce (.ofPieces pieces))
    {all : List Piece}
    (hAll : (pieces ++ more).Perm all)
    {close : Token}
    (hClose : close.closes group.closeTag.text)
    (frames : Frames)
    (before : List Token) :
    ∃ fragment,
      group.DeliversAt frames before all close fragment := by
  have hEntries :
      (Draft.ofPieces (pieces ++ more)).entries.Perm
        (Draft.ofPieces all).entries :=
    hAll.map Piece.entry
  have hAllFit : ∀ piece ∈ all, piece.Fits group := by
    intro piece hPiece
    exact (List.mem_append.mp (hAll.mem_iff.mpr hPiece)).elim
      (hFits piece) (hMore.fits piece)
  have hAllOnce : group.SetsOnce (.ofPieces all) :=
    (hMore.setsOnce hFits hOnce).of_perm hEntries
  have hMet : group.IsMetBy (.ofPieces all) :=
    hMore.isMetBy.of_perm hEntries
  have hTyped := isTyped_ofPieces hAllFit
  rcases exists_forms hTyped hAllOnce
      ((missing_eq_nil_iff hTyped).mpr hMet) with
    ⟨fragment, hForms⟩
  exact ⟨fragment,
    deliversAt_of_forms hAllFit hAllOnce hClose hForms frames
      before⟩

------------------------------------------------------------
-- Reports
------------------------------------------------------------

/-
  A section inside frames that has read the pieces stops at the
  closing tag, whatever comes after it, and reports the tags as
  missing.
-/
def ReportsAt
    (group : Section)
    (frames : Frames)
    (before : List Token)
    (pieces : List Piece)
    (close : Token)
    (missing : List Tag) : Prop :=
  ∃ failure : Failure,
    failure.kind = .omission (missing.map Tag.text) ∧
      failure.token = some close ∧
      ∀ after,
        (Step.enter group.id
            ⟨before,
              pieces.flatMap Piece.tokens ++ close :: after⟩
            frames).run =
          .error (.rejected failure)

/- What is missing when a section is closed is reported. -/
theorem reportsAt_missing
    (hFits : ∀ piece ∈ pieces, piece.Fits group)
    (hOnce : group.SetsOnce (.ofPieces pieces))
    {close : Token}
    (hClose : close.closes group.closeTag.text)
    (hUnmet : ¬ group.IsMetBy (.ofPieces pieces))
    (frames : Frames)
    (before : List Token) :
    group.ReportsAt frames before pieces close
      (group.missing (.ofPieces pieces)) :=
  refused_of_missing hFits hOnce hClose
    (fun hNone =>
      hUnmet
        ((missing_eq_nil_iff (isTyped_ofPieces hFits)).mp hNone))
    frames before

/- With its lifetime, the clause that had nothing lacks a bound. -/
theorem missing_of_lifetime
    {draft whole : Draft}
    (hOverlooks : group.Overlooks draft)
    (hTyped : group.IsTyped whole)
    {fragment : Fragment}
    (hPerm :
      (draft.entries ++ [Entry.child .lifetime fragment]).Perm
        whole.entries) :
    group.missing whole = [.lifetimeBound] := by
  rcases hOverlooks with ⟨rfl, _, hBound⟩
  have hGiven : Tag.lifetime.OccursIn whole :=
    ⟨fragment, hPerm.mem_iff.mp (by simp)⟩
  have hAbsent : ¬ Tag.lifetimeBound.OccursIn whole := by
    rintro ⟨other, hEntry⟩
    rcases List.mem_append.mp (hPerm.mem_iff.mpr hEntry) with
      hOld | hNew
    · exact hBound ⟨other, hOld⟩
    · cases List.mem_singleton.mp hNew
  have hUnmet :
      lifetimeClause.unmet whole = [[.lifetimeBound]] := by
    simp [unmet, requirements, hGiven, hAbsent]
  rw [missing_eq_reported hTyped fun hAgain =>
    hAgain.2.1 hGiven, hUnmet]
  rfl

/- Only then it is asked for the bound. -/
theorem reportsAt_of_lifetime
    (hFits : ∀ piece ∈ pieces, piece.Fits group)
    (hOnce : group.SetsOnce (.ofPieces pieces))
    (hOverlooks : group.Overlooks (.ofPieces pieces))
    {piece : Piece}
    (hPiece : piece.Fits group)
    (hMeets : piece.Meets [.lifetime])
    {all : List Piece}
    (hAll : (pieces ++ [piece]).Perm all)
    {close : Token}
    (hClose : close.closes group.closeTag.text)
    (frames : Frames)
    (before : List Token) :
    group.ReportsAt frames before all close
      [.lifetimeBound] := by
  have hClause := hOverlooks.1
  subst hClause
  rcases hMeets with ⟨hTag, opener, inside, fragment⟩
  cases List.mem_singleton.mp hTag
  have hEntries := hAll.map Piece.entry
  have hEmpty := (overlooks_iff.mp hOverlooks).1
  have hAllFit : ∀ piece ∈ all, piece.Fits .lifetimeClause :=
    fun other hOther =>
      Piece.fits_concat hFits hPiece other
        (hAll.mem_iff.mpr hOther)
  have hAllOnce : lifetimeClause.SetsOnce (.ofPieces all) :=
    (hOnce.concat_child hFits rfl hEmpty opener inside
      fragment).of_perm hEntries
  have hMissing :
      lifetimeClause.missing (.ofPieces all) =
        [.lifetimeBound] := by
    rw [List.map_append] at hEntries
    exact missing_of_lifetime hOverlooks
      (isTyped_ofPieces hAllFit) hEntries
  rw [← hMissing]
  exact refused_of_missing hAllFit hAllOnce hClose
    (by simp [hMissing]) frames before

/-
  A section that is closed too early reports all that it needs,
  or else is a lifetime clause with nothing in it. One more
  child for each requirement that was not met can be written,
  and wherever these are put, the section is closed. A lifetime
  clause with nothing in it reports its lifetime only. When it
  has got it, it is refused again, for its bound.
-/
theorem omission_report
    (hFits : ∀ piece ∈ pieces, piece.Fits group)
    (hOnce : group.SetsOnce (.ofPieces pieces))
    {close : Token}
    (hClose : close.closes group.closeTag.text)
    (hUnmet : ¬ group.IsMetBy (.ofPieces pieces))
    (frames : Frames)
    (before : List Token) :
    (∃ missing,
      group.ReportsAt frames before pieces close missing ∧
        (missing =
            (group.unmet (.ofPieces pieces)).flatMap
              group.reported ↔
          ¬ group.Overlooks (.ofPieces pieces)) ∧
        (group.Overlooks (.ofPieces pieces) →
          missing = [.lifetime] ∧
            group.unmet (.ofPieces pieces) =
              [[.lifetime], [.lifetimeBound]])) ∧
    (∃ more, group.Supplement pieces more) ∧
    (∀ more all,
      group.Supplement pieces more →
        (pieces ++ more).Perm all →
          ∃ fragment,
            group.DeliversAt frames before all close fragment) ∧
    (group.Overlooks (.ofPieces pieces) →
      ∀ piece all,
        piece.Fits group →
          piece.Meets [.lifetime] →
            (pieces ++ [piece]).Perm all →
              group.ReportsAt frames before all close
                [.lifetimeBound]) := by
  have hTyped := isTyped_ofPieces hFits
  refine ⟨⟨group.missing (.ofPieces pieces), ?_, ⟨?_, ?_⟩, ?_⟩,
    ?_, ?_, ?_⟩
  · exact reportsAt_missing hFits hOnce hClose hUnmet frames
      before
  · intro hMissing hOverlooks
    rcases missing_of_overlooks hTyped hOverlooks with
      ⟨hShort, hBoth⟩
    rw [hShort, hBoth, hOverlooks.1] at hMissing
    revert hMissing
    decide
  · exact missing_eq_reported hTyped
  · exact missing_of_overlooks hTyped
  · exact group.exists_supplement pieces
  · intro more all hMore hAll
    exact hMore.exists_deliversAt hFits hOnce hAll hClose frames
      before
  · intro hOverlooks piece all hPiece hMeets hAll
    exact reportsAt_of_lifetime hFits hOnce hOverlooks hPiece
      hMeets hAll hClose frames before

/-
  A constant parameter with nothing in it needs a name and a
  type, which are given in the other order. A lifetime clause
  with nothing in it is refused twice.
-/
theorem omission_report_const_and_clause :
    let word : Token := ⟨.ident, "N", false, {}⟩
    let tick : Token := ⟨.lifetime, "'a", false, {}⟩
    let name : Piece :=
      .child (.ofOpenTag "name") [word, .ofCloseTag "name"]
        .name (.token word)
    let type : Piece :=
      .child (.ofOpenTag "type") [word, .ofCloseTag "type"]
        .type (.code [word])
    let lifetime : Piece :=
      .child (.ofOpenTag "lifetime")
        [tick, .ofCloseTag "lifetime"] .lifetime (.token tick)
    let frames : Frames := [⟨"gparams", "const", .empty⟩]
    let const : Token := .ofCloseTag "const"
    let clause : Token := .ofCloseTag "lifetime-clause"
    constParam.ReportsAt frames [] [] const [.name, .type] ∧
      (∃ fragment,
        constParam.DeliversAt frames [] [type, name] const
          fragment) ∧
      lifetimeClause.ReportsAt [] [] [] clause [.lifetime] ∧
      lifetimeClause.ReportsAt [] [] [lifetime] clause
        [.lifetimeBound] := by
  intro word tick name type lifetime frames const clause
  have hWord : Code.IsContent [word] := by
    simp [Code.IsContent, word]
  have hTick : Code.IsContent [tick] := by
    simp [Code.IsContent, tick]
  have hName : name.Fits .constParam :=
    .child (by decide) rfl (.leaf hWord (.name rfl) (by decide))
  have hType : type.Fits .constParam :=
    .child (by decide) rfl
      (.leaf hWord (.type (by simp)) (by decide))
  have hLifetime : lifetime.Fits .lifetimeClause :=
    .child (by decide) rfl
      (.leaf hTick (.lifetime rfl) (by decide))
  have hConst : ¬ constParam.IsMetBy (.ofPieces []) := by
    intro hMet
    rcases hMet [.name] (by decide) with
      ⟨tag, _, fragment, hEntry⟩
    cases hEntry
  have hClause : ¬ lifetimeClause.IsMetBy (.ofPieces []) := by
    intro hMet
    rcases hMet [.lifetime] (by decide) with
      ⟨tag, _, fragment, hEntry⟩
    cases hEntry
  have hMore : constParam.Supplement [] [name, type] := by
    refine ⟨by simp [hName, hType], ?_⟩
    have hUnmet :
        constParam.unmet (.ofPieces []) =
          [[.name], [.type]] := by
      decide
    rw [hUnmet]
    exact .cons (.intro (by decide) _ _ _)
      (.cons (.intro (by decide) _ _ _) .nil)
  have hOverlooks : lifetimeClause.Overlooks (.ofPieces []) := by
    refine ⟨rfl, ?_, ?_⟩
    · decide
    · decide
  rcases omission_report (fits_nil _) (setsOnce_empty _)
      (by decide : const.closes constParam.closeTag.text)
      hConst frames [] with
    ⟨⟨missing, hReports, hComplete, _⟩, _, hSupplied, _⟩
  rcases omission_report (fits_nil _) (setsOnce_empty _)
      (by decide : clause.closes lifetimeClause.closeTag.text)
      hClause [] [] with
    ⟨⟨short, hShort, _, hLifetimeOnly⟩, _, _, hAgain⟩
  refine ⟨?_, ?_, ?_, ?_⟩
  · have hNotices : ¬ constParam.Overlooks (.ofPieces []) :=
      fun hOther => absurd hOther.1 (by decide)
    have hMissing : missing = [.name, .type] :=
      (hComplete.mpr hNotices).trans (by decide)
    exact hMissing ▸ hReports
  · exact hSupplied _ _ hMore (.swap type name [])
  · exact (hLifetimeOnly hOverlooks).1 ▸ hShort
  · exact hAgain hOverlooks lifetime [lifetime] hLifetime
      (.intro (by decide) _ _ _) (.refl _)

/-
  A lifetime clause that is closed at once needs a bound and
  does not say so. With the lifetime that it asks for, it is
  refused again.
-/
theorem omission_report_without_bound :
    let tick : Token := ⟨.lifetime, "'a", false, {}⟩
    let close : Token := .ofCloseTag "lifetime-clause"
    [.lifetimeBound] ∈ lifetimeClause.unmet (.ofPieces []) ∧
      Production.run "lifetime-clause" [close] =
        .error (.rejected
          { kind := .omission ["lifetime"]
            message :=
              "error parsing lifetime clause: "
                ++ "no lifetime provided"
            rule := "lifetime clause"
            token := some close }) ∧
      Production.run "lifetime-clause"
          [.ofOpenTag "lifetime", tick, .ofCloseTag "lifetime",
            close] =
        .error (.rejected
          { kind := .omission ["lifetime-bound"]
            message :=
              "error parsing lifetime clause: "
                ++ "no bound provided for lifetime \x60'a\x60"
            rule := "lifetime clause"
            token := some close }) := by
  decide +kernel

end Section

end TraitMarkup
