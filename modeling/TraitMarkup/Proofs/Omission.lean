import TraitMarkup.Proofs.Delivery
import TraitMarkup.Proofs.Redefinition

/-
  What a section must have is there when it is closed.

  Each section has a list of requirements, and each of them is
  met by a child of one of a few tags. A closing tag behind
  children and marks hands over a fragment exactly when every
  requirement is met. Otherwise it is refused, and the refusal
  names tags of the section that did not occur. Nothing else is
  called an omission.

  Key definitions include:
    * `Section.requirements`
    * `Section.IsMetBy`
    * `Section.DeliversAt`
    * `Section.OmitsAt`
    * `Failure.Omits`
    * `Fragment.WholeAt`

  Main declarations:
    * `Section.missing_eq_nil_iff`
    * `Section.deliversAt_iff`
    * `Section.omitsAt_of_not_isMetBy`
    * `Production.Fails.omits`
    * `Section.omission`
-/

namespace TraitMarkup

------------------------------------------------------------
-- Requirements
------------------------------------------------------------

/- A child of the tag is in the draft. -/
def Tag.OccursIn
    (tag : Tag)
    (draft : Draft) : Prop :=
  ∃ fragment, Entry.child tag fragment ∈ draft.entries

namespace Section

/-
  What a section must have. Of each list of tags, a child of
  one tag has to occur.
-/
def requirements : Section → List (List Tag)
  | trait | assocType | assocFn | lifetimeParam | typeParam =>
      [[.name]]
  | constParam | assocConst => [[.name], [.type]]
  | param => [[.name, .pat], [.type]]
  | forBound => [[.lifetime], [.typeBound]]
  | forClause => [[.lifetime], [.typeClause]]
  | lifetimeClause => [[.lifetime], [.lifetimeBound]]
  | typeClause => [[.type]]
  | clauses => [[.lifetimeClause, .typeClause, .forClause]]
  | gparams => [[.lifetime, .type, .const]]
  | bounds | params => []

/- The draft has all that the section must have. -/
def IsMetBy
    (group : Section)
    (draft : Draft) : Prop :=
  ∀ choices ∈ group.requirements,
    ∃ tag ∈ choices, tag.OccursIn draft

/- The tags whose children fill a field. -/
def fillers
    (group : Section)
    (field : Field) :
    List Tag :=
  Tag.all.filter fun tag =>
    (group.child? tag).any (·.field = field)

/- A tag fills the field of its child. -/
theorem mem_fillers
    {group : Section}
    {tag : Tag}
    {field : Field} :
    tag ∈ group.fillers field ↔
      ∃ child, group.child? tag = some child ∧
        child.field = field := by
  have hAll : tag ∈ Tag.all := by
    cases tag <;> decide
  simp [fillers, hAll, Option.any_eq_true_iff_get,
    Option.eq_some_iff_get_eq]

/-
  The fields that a section must have. Of each list, one field
  has to have a value.
-/
def requiredFields : Section → List (List Field)
  | trait | assocType | assocFn | lifetimeParam | typeParam =>
      [[.name]]
  | constParam | assocConst => [[.name], [.type]]
  | param => [[.arg], [.type]]
  | forBound => [[.lifetimes], [.bound]]
  | forClause => [[.lifetimes], [.clause]]
  | lifetimeClause => [[.lifetime], [.bounds]]
  | typeClause => [[.type]]
  | clauses => [[.clauseList]]
  | gparams => [[.lifetimes, .types, .consts]]
  | bounds | params => []

/- The tags that are required are those of required fields. -/
theorem requirements_eq
    (group : Section) :
    group.requirements =
      group.requiredFields.map (·.flatMap group.fillers) := by
  cases group <;> rfl

/- A field is empty when no tag that fills it occurs. -/
theorem values_eq_nil_iff
    {group : Section}
    {draft : Draft}
    {field : Field} :
    draft.values group field = [] ↔
      ∀ tag ∈ group.fillers field, ¬ tag.OccursIn draft := by
  rw [Draft.values, List.filterMap_eq_nil_iff]
  constructor
  · rintro hEmpty tag hTag ⟨fragment, hEntry⟩
    rcases mem_fillers.mp hTag with ⟨child, hChild, hField⟩
    have hNone := hEmpty _ hEntry
    simp [Entry.value?, hChild, hField] at hNone
  · intro hAbsent entry hEntry
    cases entry with
    | mark tag => rfl
    | child tag fragment =>
        simp only [Entry.value?]
        split
        · rfl
        · rename_i child hChild
          split
          · rename_i hField
            exact absurd ⟨fragment, hEntry⟩
              (hAbsent tag (mem_fillers.mpr
                ⟨child, hChild, hField⟩))
          · rfl

/- A draft has all it must when required fields have values. -/
theorem isMetBy_iff
    {group : Section}
    {draft : Draft} :
    group.IsMetBy draft ↔
      ∀ fields ∈ group.requiredFields,
        ∃ field ∈ fields, draft.values group field ≠ [] := by
  simp only [IsMetBy, requirements_eq, List.forall_mem_map,
    List.mem_flatMap, ne_eq, values_eq_nil_iff]
  push Not
  refine forall₂_congr fun fields _ => ?_
  constructor
  · rintro ⟨tag, ⟨field, hField, hTag⟩, hOccurs⟩
    exact ⟨field, hField, tag, hTag, hOccurs⟩
  · rintro ⟨field, hField, tag, hTag, hOccurs⟩
    exact ⟨tag, ⟨field, hField, hTag⟩, hOccurs⟩

/- A field of a typed draft has a value unless it is empty. -/
theorem IsTyped.isSome_value?
    {group : Section}
    {draft : Draft}
    (hTyped : group.IsTyped draft)
    (field : Field) :
    (draft.value? group field).isSome =
      !(draft.values group field).isEmpty := by
  cases hValue : draft.value? group field with
  | none => simp [hTyped.values_eq_nil hValue]
  | some value =>
      have hMem := Draft.mem_values_of_value? hValue
      simp [List.ne_nil_of_mem hMem]

/- A typed draft misses nothing when all requirements are met. -/
theorem missing_eq_nil_iff
    {group : Section}
    {draft : Draft}
    (hTyped : group.IsTyped draft) :
    group.missing draft = [] ↔ group.IsMetBy draft := by
  rw [isMetBy_iff]
  have hHas := hTyped.isSome_value?
  cases group with
  | lifetimeClause =>
      by_cases hName :
          draft.values .lifetimeClause .lifetime = [] <;>
        simp [missing, askFor, hHas, requiredFields, hName]
  | gparams =>
      simp only [missing, requiredFields]
      by_cases hLifetimes :
          draft.values .gparams .lifetimes = [] <;>
        by_cases hTypes :
            draft.values .gparams .types = [] <;>
          simp [askFor, hLifetimes, hTypes]
  | _ => simp [missing, askFor, hHas, requiredFields]

/- What is asked for are tags of a part that is not given. -/
theorem mem_askFor
    {tag : Tag}
    {tags : List Tag}
    {given : Bool} :
    tag ∈ askFor tags given ↔ given = false ∧ tag ∈ tags := by
  cases given <;> simp [askFor]

/- A tag that is asked for fills a field that is empty. -/
theorem exists_empty_of_mem_missing
    {group : Section}
    {draft : Draft}
    (hTyped : group.IsTyped draft)
    {tag : Tag}
    (hTag : tag ∈ group.missing draft) :
    ∃ field,
      tag ∈ group.fillers field ∧
        draft.values group field = [] := by
  have hHas := hTyped.isSome_value?
  cases group with
  | bounds | params => cases hTag
  | trait | assocType | assocFn | lifetimeParam | typeParam
  | typeClause =>
      simp only [missing, mem_askFor, hHas, Bool.not_eq_false',
        List.isEmpty_iff, List.mem_singleton] at hTag
      rcases hTag with ⟨hEmpty, rfl⟩
      exact ⟨_, mem_fillers.mpr ⟨_, rfl, rfl⟩, hEmpty⟩
  | constParam | assocConst | forBound | forClause | param =>
      simp only [missing, List.mem_append, mem_askFor, hHas,
        Bool.not_eq_false', List.isEmpty_iff,
        List.mem_singleton] at hTag
      rcases hTag with ⟨hEmpty, rfl⟩ | ⟨hEmpty, rfl⟩
      · exact ⟨_, mem_fillers.mpr ⟨_, rfl, rfl⟩, hEmpty⟩
      · exact ⟨_, mem_fillers.mpr ⟨_, rfl, rfl⟩, hEmpty⟩
  | lifetimeClause =>
      simp only [missing, hHas] at hTag
      split at hTag
      · rcases mem_askFor.mp hTag with ⟨hGiven, hMem⟩
        rw [List.mem_singleton.mp hMem]
        exact ⟨.bounds, mem_fillers.mpr ⟨_, rfl, rfl⟩,
          by simpa using hGiven⟩
      · rename_i hGiven
        rw [List.mem_singleton.mp hTag]
        exact ⟨.lifetime, mem_fillers.mpr ⟨_, rfl, rfl⟩,
          by simpa using hGiven⟩
  | clauses =>
      simp only [missing, mem_askFor, Bool.not_eq_false',
        List.isEmpty_iff, List.mem_cons, List.not_mem_nil,
        or_false] at hTag
      rcases hTag with ⟨hEmpty, hTag⟩
      refine ⟨.clauseList, ?_, hEmpty⟩
      rcases hTag with rfl | rfl | rfl
      · exact mem_fillers.mpr ⟨_, rfl, rfl⟩
      · exact mem_fillers.mpr ⟨_, rfl, rfl⟩
      · exact mem_fillers.mpr ⟨_, rfl, rfl⟩
  | gparams =>
      simp only [missing, mem_askFor, Bool.or_eq_false_iff,
        Bool.not_eq_false', List.isEmpty_iff, List.mem_cons,
        List.not_mem_nil, or_false] at hTag
      rcases hTag with
        ⟨⟨⟨hLifetimes, hTypes⟩, hConsts⟩, rfl | rfl | rfl⟩
      · exact ⟨_, mem_fillers.mpr ⟨_, rfl, rfl⟩, hLifetimes⟩
      · exact ⟨_, mem_fillers.mpr ⟨_, rfl, rfl⟩, hTypes⟩
      · exact ⟨_, mem_fillers.mpr ⟨_, rfl, rfl⟩, hConsts⟩

/- A tag that is asked for is of the section and is not there. -/
theorem absent_of_mem_missing
    {group : Section}
    {draft : Draft}
    (hTyped : group.IsTyped draft)
    {tag : Tag}
    (hTag : tag ∈ group.missing draft) :
    (group.child? tag).isSome ∧ ¬ tag.OccursIn draft := by
  rcases exists_empty_of_mem_missing hTyped hTag with
    ⟨field, hFills, hEmpty⟩
  rcases mem_fillers.mp hFills with ⟨child, hChild, _⟩
  exact ⟨by simp [hChild],
    values_eq_nil_iff.mp hEmpty tag hFills⟩

end Section

------------------------------------------------------------
-- Closing Behind Pieces
------------------------------------------------------------

namespace Section

variable {group : Section}
variable {pieces : List Piece}

/-
  A section inside frames that has read the pieces hands over
  the fragment at the closing tag, whatever comes after it.
-/
def DeliversAt
    (group : Section)
    (frames : Frames)
    (before : List Token)
    (pieces : List Piece)
    (close : Token)
    (fragment : Fragment) : Prop :=
  ∀ after,
    .deliver frames
        ⟨close ::
            ((pieces.flatMap Piece.tokens).reverse ++ before),
          after⟩
        fragment ∈
      (Step.enter group.id
        ⟨before, pieces.flatMap Piece.tokens ++ close :: after⟩
        frames).dispatched

/-
  A section inside frames that has read the pieces stops at the
  closing tag, whatever comes after it, because children are
  missing. Those that it names may be in the section and are
  not among the pieces.
-/
def OmitsAt
    (group : Section)
    (frames : Frames)
    (before : List Token)
    (pieces : List Piece)
    (close : Token) : Prop :=
  ∃ (failure : Failure) (missing : List Tag),
    failure.kind = .omission (missing.map Tag.text) ∧
      failure.token = some close ∧
      missing ≠ [] ∧
      (∀ tag ∈ missing,
        (group.child? tag).isSome ∧
          ¬ tag.OccursIn (.ofPieces pieces)) ∧
      ∀ after,
        (Step.enter group.id
            ⟨before,
              pieces.flatMap Piece.tokens ++ close :: after⟩
            frames).run =
          .error (.rejected failure)

/- What the pieces form is handed over. -/
theorem deliversAt_of_forms
    (hFits : ∀ piece ∈ pieces, piece.Fits group)
    (hOnce : group.SetsOnce (.ofPieces pieces))
    {close : Token}
    (hClose : close.closes group.closeTag.text)
    {fragment : Fragment}
    (hForms : group.Forms (.ofPieces pieces) fragment)
    (frames : Frames)
    (before : List Token) :
    group.DeliversAt frames before pieces close fragment := by
  intro after
  have hHandsOver :=
    (Production.derives_of_fits hFits hOnce hForms
      hClose).handsOver frames before after
  simpa [Production.id] using hHandsOver

/- Pieces that leave something missing are refused with it. -/
theorem refused_of_missing
    (hFits : ∀ piece ∈ pieces, piece.Fits group)
    (hOnce : group.SetsOnce (.ofPieces pieces))
    {close : Token}
    (hClose : close.closes group.closeTag.text)
    (hMissing : group.missing (.ofPieces pieces) ≠ [])
    (frames : Frames)
    (before : List Token) :
    ∃ failure : Failure,
      failure.kind =
          .omission
            ((group.missing (.ofPieces pieces)).map Tag.text) ∧
        failure.token = some close ∧
        ∀ after,
          (Step.enter group.id
              ⟨before,
                pieces.flatMap Piece.tokens ++ close :: after⟩
              frames).run =
            .error (.rejected failure) := by
  rcases exists_subject (isTyped_ofPieces hFits) with
    ⟨subject, hSubject⟩
  let cause : Cause :=
    .incomplete (group.missing (.ofPieces pieces)) subject close
  have hStop :
      group.close frames.chain (.ofPieces pieces) close =
        .error (.rejected
          ((Production.ofSection group).failure frames.chain
            cause)) := by
    rw [Section.close]
    split
    · contradiction
    · simp only [hSubject]
      rfl
  refine ⟨(Production.ofSection group).failure frames.chain
    cause, rfl, rfl, fun after => ?_⟩
  rw [run_pieces hFits hOnce, proceed,
    read_eq_close_iff.mpr hClose]
  simp only [hStop]
  rfl

/- Pieces that do not meet all requirements are refused. -/
theorem omitsAt_of_not_isMetBy
    (hFits : ∀ piece ∈ pieces, piece.Fits group)
    (hOnce : group.SetsOnce (.ofPieces pieces))
    {close : Token}
    (hClose : close.closes group.closeTag.text)
    (hUnmet : ¬ group.IsMetBy (.ofPieces pieces))
    (frames : Frames)
    (before : List Token) :
    group.OmitsAt frames before pieces close := by
  have hTyped := isTyped_ofPieces hFits
  have hMissing : group.missing (.ofPieces pieces) ≠ [] :=
    fun hNone => hUnmet ((missing_eq_nil_iff hTyped).mp hNone)
  rcases refused_of_missing hFits hOnce hClose hMissing frames
      before with
    ⟨failure, hKind, hToken, hRun⟩
  exact ⟨failure, _, hKind, hToken, hMissing,
    fun tag hTag => absent_of_mem_missing hTyped hTag, hRun⟩

/- What is handed over has met all requirements. -/
theorem isMetBy_of_deliversAt
    (hFits : ∀ piece ∈ pieces, piece.Fits group)
    (hOnce : group.SetsOnce (.ofPieces pieces))
    {close : Token}
    (hClose : close.closes group.closeTag.text)
    {frames : Frames}
    {before : List Token}
    {fragment : Fragment}
    (hDelivers :
      group.DeliversAt frames before pieces close fragment) :
    group.IsMetBy (.ofPieces pieces) := by
  by_contra hUnmet
  rcases omitsAt_of_not_isMetBy hFits hOnce hClose hUnmet
      frames before with
    ⟨failure, missing, hKind, _, _, _, hRun⟩
  -- With nothing after the closing tag, the sections around
  -- can only ask for more tokens.
  have hStop := hRun []
  rw [Step.run_eq_of_mem_dispatched (hDelivers [])] at hStop
  rw [Step.kind_of_run_at_end rfl hStop] at hKind
  cases hKind

/- What is handed over is what the pieces form. -/
theorem deliversAt_iff
    (hFits : ∀ piece ∈ pieces, piece.Fits group)
    (hOnce : group.SetsOnce (.ofPieces pieces))
    {close : Token}
    (hClose : close.closes group.closeTag.text)
    (frames : Frames)
    (before : List Token)
    (fragment : Fragment) :
    group.DeliversAt frames before pieces close fragment ↔
      group.Forms (.ofPieces pieces) fragment := by
  constructor
  · intro hDelivers
    have hMet :=
      isMetBy_of_deliversAt hFits hOnce hClose hDelivers
    have hTyped := isTyped_ofPieces hFits
    rcases exists_forms hTyped hOnce
        ((missing_eq_nil_iff hTyped).mpr hMet) with
      ⟨found, hForms⟩
    have hFound :=
      deliversAt_of_forms hFits hOnce hClose hForms frames
        before
    have hSame :=
      Step.eq_of_mem_dispatched (hDelivers []) (hFound []) rfl
    cases hSame
    exact hForms
  · intro hForms
    exact deliversAt_of_forms hFits hOnce hClose hForms frames
      before

end Section

------------------------------------------------------------
-- Faults Of A Run
------------------------------------------------------------

/- What halts a section as an omission is its closing tag. -/
theorem Section.Halts.omits
    {group : Section}
    {draft : Draft}
    {before rest : List Token}
    {cause : Cause}
    (hHalts : group.Halts draft before rest cause)
    {missing : List String}
    (hKind : cause.kind = .omission missing) :
    ∃ token tail,
      rest = token :: tail ∧
        token.closes group.closeTag.text ∧
        group.missing draft ≠ [] ∧
        missing = (group.missing draft).map Tag.text ∧
        cause.token? = some token := by
  cases hHalts with
  | endOfInput => cases hKind
  | child => cases hKind
  | mark => cases hKind
  | incomplete hCloses hMissing =>
      cases hKind
      exact ⟨_, _, rfl, hCloses, hMissing, rfl, rfl⟩
  | stray => cases hKind

/- A leaf does not fail for an omission. -/
theorem Leaf.Halts.kind_ne_omission
    {leaf : Leaf}
    {before rest : List Token}
    {cause : Cause}
    (hHalts : leaf.Halts before rest cause)
    (missing : List String) :
    cause.kind ≠ .omission missing := by
  cases hHalts <;> exact nofun

/-
  A run that ends with an omission comes to a section that
  meets, behind marks it sets, its closing tag while its draft
  misses something.
-/
theorem Step.misses_of_run
    {start : Step}
    {failure : Failure}
    {missing : List String}
    (hRun : start.run = .error (.rejected failure))
    (hKind : failure.kind = .omission missing) :
    ∃ step ∈ start.dispatched,
      ∃ group frames draft flags token tail final,
        step.Hands group frames draft ∧
          step.cursor.rest = flags ++ token :: tail ∧
          group.SetsMarks draft flags final ∧
          token.closes group.closeTag.text ∧
          group.missing final ≠ [] ∧
          missing = (group.missing final).map Tag.text ∧
          failure.token = some token := by
  rcases haltsAt_of_run hRun with ⟨step, hStep, hFound⟩
  refine ⟨step, hStep, ?_⟩
  cases hFound with
  | leaf hHalts hFailure =>
      rw [hFailure] at hKind
      exact absurd hKind (hHalts.kind_ne_omission missing)
  | group hHands hRest hMarks hHalts hFailure =>
      subst hFailure
      rcases hHalts.omits hKind with
        ⟨token, tail, rfl, hCloses, hMissing, hNames, hToken⟩
      exact ⟨_, _, _, _, token, tail, _, hHands, hRest, hMarks,
        hCloses, hMissing, hNames, hToken⟩

/-
  The failure is at a closing tag of the stream, behind pieces
  of the section that do not meet its requirements. The names
  are of tags that the section may have and the pieces do not.
-/
def Failure.Omits
    (failure : Failure)
    (stream : List Token)
    (missing : List String) : Prop :=
  ∃ (group : Section) (place : Cursor) (pieces : List Piece)
      (close : Token) (after : List Token) (tags : List Tag),
    place.tokens = stream ∧
      place.rest =
        pieces.flatMap Piece.tokens ++ close :: after ∧
      (∀ piece ∈ pieces, piece.Fits group) ∧
      group.SetsOnce (.ofPieces pieces) ∧
      close.closes group.closeTag.text ∧
      ¬ group.IsMetBy (.ofPieces pieces) ∧
      failure.token = some close ∧
      missing = tags.map Tag.text ∧
      tags ≠ [] ∧
      ∀ tag ∈ tags,
        (group.child? tag).isSome ∧
          ¬ tag.OccursIn (.ofPieces pieces)

/-
  A production that fails for an omission has a section that
  reads pieces and then its closing tag too early. The
  induction is on the sections around the failure.
-/
theorem Production.Fails.omits
    {production : Production}
    {path : List String}
    {cursor : Cursor}
    {failure : Failure}
    (hFails : production.Fails path cursor failure)
    {missing : List String}
    (hKind : failure.kind = .omission missing) :
    failure.Omits cursor.tokens missing := by
  induction hFails with
  | leaf hHalts =>
      exact absurd hKind (hHalts.kind_ne_omission missing)
  | @group group path cursor place pieces cause hFits hOnce
      hCovers hHalts =>
      have hTyped := Section.isTyped_ofPieces hFits
      rcases hHalts.omits hKind with
        ⟨close, after, hRest, hCloses, hMissing, hNames, hToken⟩
      refine ⟨group, cursor, pieces, close, after,
        group.missing (.ofPieces pieces), rfl, ?_, hFits, hOnce,
        hCloses, ?_, hToken, hNames, hMissing, ?_⟩
      · rw [← hRest]
        exact hCovers.rest
      · intro hMet
        exact hMissing
          ((Section.missing_eq_nil_iff hTyped).mpr hMet)
      · intro tag hTag
        exact Section.absent_of_mem_missing hTyped hTag
  | child _ _ hCovers _ _ _ _ ih =>
      rcases ih hKind with
        ⟨group, place, pieces, close, after, tags, hTokens,
          hFound⟩
      refine ⟨group, place, pieces, close, after, tags, ?_,
        hFound⟩
      rw [hTokens]
      simp [Cursor.tokens, hCovers.before, hCovers.rest]

/- A run without frames omits a child in its stream. -/
theorem Step.omits_of_run
    {production : Production}
    {cursor : Cursor}
    {failure : Failure}
    {missing : List String}
    (hRun :
      (enter production.id cursor []).run =
        .error (.rejected failure))
    (hKind : failure.kind = .omission missing) :
    failure.Omits cursor.tokens missing := by
  rw [run_enter_nil] at hRun
  rcases Production.fails_of_parse hRun with
    ⟨found, hFound, hFails⟩
  cases hFound
  exact hFails.omits hKind

/- A trait that is refused omits a child in its stream. -/
theorem TraitDecl.omits_of_ofTokens
    {tokens : List Token}
    {failure : Failure}
    {missing : List String}
    (hTokens : ofTokens tokens = .error (.rejected failure))
    (hKind : failure.kind = .omission missing) :
    failure.Omits tokens missing := by
  rcases refused_of_ofTokens hTokens with
    ⟨found, hFound, hRefused⟩
  cases hFound
  cases hRefused with
  | nothing hFault =>
      cases hFault
      cases hKind
  | noTrait _ hFault =>
      cases hFault
      cases hKind
  | inside _ hFails => exact hFails.omits hKind
  | extraneous _ _ hFault =>
      cases hFault
      cases hKind

------------------------------------------------------------
-- Fragments That Are Whole
------------------------------------------------------------

/-
  The fragment is complete right behind the tokens: it is what
  the code of a leaf holds, or what pieces form that meet all
  requirements of their section.
-/
inductive Fragment.WholeAt
    (fragment : Fragment) :
    List Token → Prop
  | leaf
      {leaf : Leaf}
      {code : Code}
      {close : Token}
      {before : List Token}
      (hContent : code.IsContent)
      (hHolds : leaf.Holds code fragment)
      (hClose : close.closes leaf.closeTag.text) :
      WholeAt fragment (close :: (code.reverse ++ before))
  | group
      {group : Section}
      {pieces : List Piece}
      {close : Token}
      {before : List Token}
      (hFits : ∀ piece ∈ pieces, piece.Fits group)
      (hOnce : group.SetsOnce (.ofPieces pieces))
      (hMet : group.IsMetBy (.ofPieces pieces))
      (hForms : group.Forms (.ofPieces pieces) fragment)
      (hClose : close.closes group.closeTag.text) :
      WholeAt fragment
        (close ::
          ((pieces.flatMap Piece.tokens).reverse ++ before))

/- What derives is complete behind its tokens. -/
theorem Production.Derives.wholeAt
    {production : Production}
    {tokens : List Token}
    {fragment : Fragment}
    (hDerives : production.Derives tokens fragment)
    (before : List Token) :
    fragment.WholeAt (tokens.reverse ++ before) := by
  cases production with
  | ofLeaf leaf =>
      cases hDerives with
      | leaf hContent hHolds hClose =>
          rw [List.reverse_concat]
          exact .leaf hContent hHolds hClose
  | ofSection group =>
      rcases exists_fits_of_derives hDerives with
        ⟨pieces, close, rfl, hFits, hOnce, hForms, hClose⟩
      have hMet :=
        (Section.missing_eq_nil_iff
          (Section.isTyped_ofPieces hFits)).mp
          (Section.missing_of_forms hForms)
      rw [List.reverse_concat]
      exact .group hFits hOnce hMet hForms hClose

------------------------------------------------------------
-- Omission
------------------------------------------------------------

/-
  What a section must have is found missing exactly at its
  closing tag. Behind children and marks that a section takes
  in, the tag hands over what they form when all requirements
  are met, and otherwise is refused with tags that did not
  occur. Children that give a part twice are not taken in. No
  run ends with such a refusal for another reason, and every
  fragment that a run hands over is complete.
-/
theorem Section.omission :
    (∀ (group : Section)
        (frames : Frames)
        (before : List Token)
        (pieces : List Piece)
        (close : Token),
      (∀ piece ∈ pieces, piece.Fits group) →
        group.SetsOnce (.ofPieces pieces) →
          close.closes group.closeTag.text →
            ((∃ fragment,
              group.DeliversAt frames before pieces close
                fragment) ↔
              group.IsMetBy (.ofPieces pieces)) ∧
            (∀ fragment,
              group.DeliversAt frames before pieces close
                  fragment ↔
                group.Forms (.ofPieces pieces) fragment) ∧
            (¬ group.IsMetBy (.ofPieces pieces) →
              group.OmitsAt frames before pieces close)) ∧
    (∀ (group : Section)
        (frames : Frames)
        (before : List Token)
        (pieces : List Piece),
      (∀ piece ∈ pieces, piece.Fits group) →
        ¬ group.SetsOnce (.ofPieces pieces) →
          ∃ done token later prior,
            pieces.flatMap Piece.tokens =
                done.flatMap Piece.tokens ++ token :: later ∧
              group.RedefinesAt frames before done token
                prior) ∧
    (∀ (start : Step)
        (failure : Failure)
        (missing : List String),
      start.run = .error (.rejected failure) →
        failure.kind = .omission missing →
          ∃ step ∈ start.dispatched,
            ∃ group frames draft flags token tail final,
              step.Hands group frames draft ∧
                step.cursor.rest = flags ++ token :: tail ∧
                group.SetsMarks draft flags final ∧
                token.closes group.closeTag.text ∧
                group.missing final ≠ [] ∧
                missing = (group.missing final).map Tag.text ∧
                failure.token = some token) ∧
    (∀ (production : Production)
        (cursor : Cursor)
        (failure : Failure)
        (missing : List String),
      (Step.enter production.id cursor []).run =
          .error (.rejected failure) →
        failure.kind = .omission missing →
          failure.Omits cursor.tokens missing) ∧
    (∀ (tokens : List Token)
        (failure : Failure)
        (missing : List String),
      TraitDecl.ofTokens tokens = .error (.rejected failure) →
        failure.kind = .omission missing →
          failure.Omits tokens missing) ∧
    (∀ (production : Production)
        (start place : Cursor)
        (frames : Frames)
        (fragment : Fragment),
      .deliver frames place fragment ∈
          (Step.enter production.id start []).dispatched →
        fragment.WholeAt place.before) := by
  refine ⟨?_, ?_, ?_, ?_, ?_, ?_⟩
  · intro group frames before pieces close hFits hOnce hClose
    have hForms :=
      deliversAt_iff hFits hOnce hClose frames before
    have hTyped := isTyped_ofPieces hFits
    refine ⟨⟨?_, fun hMet => ?_⟩, hForms, fun hUnmet => ?_⟩
    · rintro ⟨fragment, hDelivers⟩
      exact isMetBy_of_deliversAt hFits hOnce hClose hDelivers
    · rcases exists_forms hTyped hOnce
          ((missing_eq_nil_iff hTyped).mpr hMet) with
        ⟨fragment, hFragment⟩
      exact ⟨fragment, (hForms fragment).mpr hFragment⟩
    · exact omitsAt_of_not_isMetBy hFits hOnce hClose hUnmet
        frames before
  · intro group frames before pieces hFits hTwice
    exact redefinesAt_of_not_setsOnce hFits hTwice frames before
  · intro start failure missing hRun hKind
    exact Step.misses_of_run hRun hKind
  · intro production cursor failure missing hRun hKind
    exact Step.omits_of_run hRun hKind
  · intro tokens failure missing hTokens hKind
    exact TraitDecl.omits_of_ofTokens hTokens hKind
  · intro production start place frames fragment hStep
    rcases Step.derives_of_dispatched hStep with
      ⟨inner, inside, before, hDerives, hBefore⟩
    rw [hBefore]
    exact hDerives.wholeAt before

/-
  A constant parameter without its type, inside a list that
  waits for it and alone, the same with its type, and one with
  two names. A trait that is closed at once has no name.
-/
theorem Section.omission_const_and_trait :
    let word : Token := ⟨.ident, "N", false, {}⟩
    let name : Piece :=
      .child (.ofOpenTag "name") [word, .ofCloseTag "name"]
        .name (.token word)
    let type : Piece :=
      .child (.ofOpenTag "type") [word, .ofCloseTag "type"]
        .type (.code [word])
    let close : Token := .ofCloseTag "const"
    let frames : Frames := [⟨"gparams", "const", .empty⟩]
    let whole : Fragment := .param (.const word [word])
    let start : Cursor :=
      ⟨[], [name, type].flatMap Piece.tokens ++ [close]⟩
    let short : Cursor := ⟨[], name.tokens ++ [close]⟩
    let tokens : List Token :=
      [.ofOpenTag "trait", .ofCloseTag "trait"]
    Section.constParam.OmitsAt frames [] [name] close ∧
      Section.constParam.DeliversAt frames [] [name, type]
        close whole ∧
      Section.constParam.IsMetBy (.ofPieces [name, type]) ∧
      (∃ done token later prior,
        [name, name].flatMap Piece.tokens =
            done.flatMap Piece.tokens ++ token :: later ∧
          Section.constParam.RedefinesAt frames [] done token
            prior) ∧
      (∃ (failure : Failure) (missing : List String),
        (Step.enter "const" short frames).run =
            .error (.rejected failure) ∧
          ∃ step ∈ (Step.enter "const" short frames).dispatched,
            ∃ group outer draft flags token tail final,
              step.Hands group outer draft ∧
                step.cursor.rest = flags ++ token :: tail ∧
                group.SetsMarks draft flags final ∧
                token.closes group.closeTag.text ∧
                group.missing final ≠ [] ∧
                missing = (group.missing final).map Tag.text ∧
                failure.token = some token) ∧
      (∃ (failure : Failure) (missing : List String),
        (Step.enter "const" short []).run =
            .error (.rejected failure) ∧
          failure.Omits short.tokens missing) ∧
      (∃ (failure : Failure) (missing : List String),
        TraitDecl.ofTokens tokens =
            .error (.rejected failure) ∧
          failure.Omits tokens missing) ∧
      whole.WholeAt start.tokens.reverse := by
  intro word name type close frames whole start short tokens
  rcases omission with
    ⟨hClosing, hTwice, hAny, hRuns, hTraits, hDeliveries⟩
  have hClose : close.closes Section.constParam.closeTag.text := by
    decide
  have hContent : Code.IsContent [word] := by
    simp [Code.IsContent, word]
  have hName : name.Fits .constParam :=
    .child (by decide) rfl (.leaf hContent (.name rfl) (by decide))
  have hType : type.Fits .constParam :=
    .child (by decide) rfl
      (.leaf hContent (.type (by simp)) (by decide))
  have hShort : ∀ piece ∈ [name], piece.Fits .constParam :=
    List.forall_mem_singleton.mpr hName
  have hBoth : ∀ piece ∈ [name, type], piece.Fits .constParam := by
    simp [hName, hType]
  have hForms :
      Section.constParam.Forms (.ofPieces [name, type]) whole :=
    .constParam rfl rfl
  have hOnce :
      Section.constParam.SetsOnce (.ofPieces [name, type]) :=
    (setsOnce_singleton _ name).add_child
      (isTyped_ofPieces hShort) rfl rfl (.code [word])
  have hUnmet :
      ¬ Section.constParam.IsMetBy (.ofPieces [name]) := by
    intro hMet
    rcases hMet [.type] (by decide) with
      ⟨tag, hTag, fragment, hEntry⟩
    cases List.mem_singleton.mp hTag
    cases List.mem_singleton.mp hEntry
  have hNotOnce :
      ¬ Section.constParam.SetsOnce (.ofPieces [name, name]) := by
    intro hOnce
    exact absurd (hOnce.1 .name _ rfl rfl) (by decide)
  have hOmits :=
    (hClosing .constParam frames [] [name] close hShort
      (setsOnce_singleton _ name) hClose).2.2 hUnmet
  have hAlone :=
    (hClosing .constParam [] [] [name] close hShort
      (setsOnce_singleton _ name) hClose).2.2 hUnmet
  have hBothAt :=
    hClosing .constParam frames [] [name, type] close hBoth hOnce
      hClose
  have hDelivers := (hBothAt.2.1 whole).mpr hForms
  have hTrait : ¬ Section.trait.IsMetBy (.ofPieces []) := by
    intro hMet
    rcases hMet [.name] (by decide) with
      ⟨tag, _, fragment, hEntry⟩
    cases hEntry
  have hEmpty :=
    (hClosing .trait [] [.ofOpenTag "trait"] []
      (.ofCloseTag "trait") (fits_nil _) (setsOnce_empty _)
      (by decide)).2.2 hTrait
  refine ⟨hOmits, hDelivers, hBothAt.1.mp ⟨whole, hDelivers⟩,
    hTwice _ frames [] _ (by simp [hName]) hNotOnce, ?_, ?_, ?_,
    ?_⟩
  · rcases hOmits with ⟨failure, missing, hKind, _, _, _, hRun⟩
    exact ⟨failure, _, hRun [],
      hAny _ failure _ (hRun []) hKind⟩
  · rcases hAlone with ⟨failure, missing, hKind, _, _, _, hRun⟩
    exact ⟨failure, _, hRun [],
      hRuns (.ofSection .constParam) short failure _ (hRun [])
        hKind⟩
  · rcases hEmpty with ⟨failure, missing, hKind, _, _, _, hRun⟩
    have hTokens :
        TraitDecl.ofTokens tokens = .error (.rejected failure) := by
      rw [TraitDecl.ofTokens_cons (by decide),
        ← Step.run_enter_nil]
      exact congrArg (·.bind TraitDecl.ofResult) (hRun [])
    exact ⟨failure, _, hTokens, hTraits _ failure _ hTokens hKind⟩
  · have hAloneBoth :=
      ((hClosing .constParam [] [] [name, type] close hBoth hOnce
        hClose).2.1 whole).mpr hForms
    have hWhole :=
      hDeliveries (.ofSection .constParam) start _ [] whole
        (hAloneBoth [])
    simpa [start, Cursor.tokens] using hWhole

end TraitMarkup
