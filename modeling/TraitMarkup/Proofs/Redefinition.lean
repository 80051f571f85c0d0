import Mathlib.Data.List.Induction
import TraitMarkup.Proofs.Dispatch
import TraitMarkup.Proofs.Refusal

/-
  What may be given once is given once.

  A tag for a single child is refused as soon as a piece before
  it has filled the field of the child, whatever tag the piece
  has and however little it holds. A mark is refused when it is
  set. Nothing else is called a redefinition, and no delivery
  to a frame that a run has put up overwrites a value.

  Key definitions include:
    * `Piece.Stores`
    * `Section.Refills`
    * `Section.RedefinesAt`
    * `Section.Regives`
    * `Step.HaltsAt`

  Main declarations:
    * `Step.haltsAt_of_run`
    * `Section.redefinesAt_iff`
    * `Step.regives_of_run`
    * `Production.Fails.refills`
    * `Section.redefinition`
-/

namespace TraitMarkup

------------------------------------------------------------
-- Filled Fields
------------------------------------------------------------

/- The piece puts a value into the field. -/
inductive Piece.Stores
    (group : Section)
    (field : Field)
    (value : Fragment) :
    Piece → Prop
  | intro
      {opener : Token}
      {inside : List Token}
      {tag : Tag}
      {fragment : Fragment}
      {child : Child}
      (hChild : group.child? tag = some child)
      (hField : child.field = field)
      (hValue : child.adapt fragment = value) :
      Stores group field value
        (.child opener inside tag fragment)

/-
  The token gives a part again that one of the pieces has given
  already, with the value that was given first.
-/
inductive Section.Refills
    (group : Section)
    (pieces : List Piece)
    (token : Token) :
    Option Fragment → Prop
  | child
      {tag : Tag}
      {child : Child}
      {piece : Piece}
      {value : Fragment}
      (hOpens : token.opens tag.text)
      (hChild : group.child? tag = some child)
      (hSingle : child.repeated = false)
      (hPiece : piece ∈ pieces)
      (hStores : piece.Stores group child.field value) :
      Refills group pieces token (some value)
  | mark
      {tag : Tag}
      {flag : Token}
      (hMarks : token.marks tag.text)
      (hMark : group.hasMark tag)
      (hPiece : .mark flag tag ∈ pieces) :
      Refills group pieces token none

namespace Draft

variable {group : Section}
variable {pieces : List Piece}

/- The values of a field are what the pieces put into it. -/
theorem mem_values_ofPieces
    {field : Field}
    {value : Fragment} :
    value ∈ (ofPieces pieces).values group field ↔
      ∃ piece ∈ pieces, piece.Stores group field value := by
  simp only [values, ofPieces, List.mem_filterMap,
    List.mem_map]
  constructor
  · rintro ⟨entry, ⟨piece, hPiece, rfl⟩, hValue⟩
    refine ⟨piece, hPiece, ?_⟩
    cases piece with
    | mark token tag => cases hValue
    | child opener inside tag fragment =>
        simp only [Piece.entry, Entry.value?] at hValue
        split at hValue
        · cases hValue
        · rename_i child hChild
          split at hValue
          · rename_i hField
            exact .intro hChild hField (Option.some.inj hValue)
          · cases hValue
  · rintro ⟨piece, hPiece, hStores⟩
    refine ⟨piece.entry, ⟨piece, hPiece, rfl⟩, ?_⟩
    cases hStores with
    | intro hChild hField hValue =>
        simp [Piece.entry, Entry.value?, hChild, hField, hValue]

/- A mark is set when a piece sets it. -/
theorem marked_ofPieces_iff
    {tag : Tag} :
    (ofPieces pieces).marked tag ↔
      ∃ flag, .mark flag tag ∈ pieces := by
  rw [marked_iff]
  simp only [ofPieces, List.mem_map]
  constructor
  · rintro ⟨piece, hPiece, hEntry⟩
    cases piece with
    | child opener inside other fragment => cases hEntry
    | mark flag other =>
        cases hEntry
        exact ⟨flag, hPiece⟩
  · rintro ⟨flag, hPiece⟩
    exact ⟨_, hPiece, rfl⟩

end Draft

namespace Section

variable {group : Section}
variable {pieces : List Piece}

/- A single child would replace what a piece has stored. -/
theorem prior?_ofPieces_iff
    (hFits : ∀ piece ∈ pieces, piece.Fits group)
    (hOnce : group.SetsOnce (.ofPieces pieces))
    {tag : Tag}
    {child : Child}
    (hChild : group.child? tag = some child)
    {value : Fragment} :
    group.prior? (.ofPieces pieces) child = some value ↔
      child.repeated = false ∧
        ∃ piece ∈ pieces,
          piece.Stores group child.field value := by
  rw [← Draft.mem_values_ofPieces]
  unfold prior?
  split
  · rename_i hRepeated
    simp [hRepeated]
  · rename_i hSingle
    have hNot : child.repeated = false := by
      simpa using hSingle
    constructor
    · intro hValue
      exact ⟨hNot, Draft.mem_values_of_value? hValue⟩
    · rintro ⟨_, hValue⟩
      have hLength := hOnce.1 tag child hChild hNot
      have hSome := (isTyped_ofPieces hFits).some?_eq hValue
      rcases List.append_of_mem hValue with
        ⟨left, right, hValues⟩
      rw [hValues] at hLength
      simp only [List.length_append, List.length_cons]
        at hLength
      have hLeft : left = [] :=
        List.eq_nil_of_length_eq_zero (by omega)
      have hRight : right = [] :=
        List.eq_nil_of_length_eq_zero (by omega)
      subst hLeft hRight
      rw [Draft.value?, hValues]
      exact hSome

end Section

------------------------------------------------------------
-- Faults Of A Step
------------------------------------------------------------

/-
  The token gives a part again that a draft has: a single child
  whose field has a value, or a mark that is set.
-/
inductive Section.Regives
    (group : Section)
    (draft : Draft)
    (token : Token) :
    Option Fragment → Prop
  | child
      {tag : Tag}
      {child : Child}
      {value : Fragment}
      (hOpens : token.opens tag.text)
      (hChild : group.child? tag = some child)
      (hSingle : child.repeated = false)
      (hValue : draft.value? group child.field = some value) :
      Regives group draft token (some value)
  | mark
      {tag : Tag}
      (hMarks : token.marks tag.text)
      (hMark : group.hasMark tag)
      (hSet : draft.marked tag) :
      Regives group draft token none

namespace Section

/- What a draft of pieces has, one of the pieces has given. -/
theorem Regives.refills
    {group : Section}
    {pieces : List Piece}
    {token : Token}
    {prior : Option Fragment}
    (hRegives : group.Regives (.ofPieces pieces) token prior)
    (hFits : ∀ piece ∈ pieces, piece.Fits group)
    (hOnce : group.SetsOnce (.ofPieces pieces)) :
    group.Refills pieces token prior := by
  cases hRegives with
  | child hOpens hChild hSingle hValue =>
      rename_i child value
      have hPrior :
          group.prior? (.ofPieces pieces) child =
            some value := by
        rw [prior?, hSingle]
        exact hValue
      rcases (prior?_ofPieces_iff hFits hOnce hChild).mp
          hPrior with
        ⟨_, piece, hPiece, hStores⟩
      exact .child hOpens hChild hSingle hPiece hStores
  | mark hMarks hMark hSet =>
      rcases Draft.marked_ofPieces_iff.mp hSet with
        ⟨flag, hPiece⟩
      exact .mark hMarks hMark hPiece

/- A section that is refused at its closing tag misses parts. -/
theorem halts_of_close
    {group : Section}
    {path : List String}
    {draft : Draft}
    {before rest : List Token}
    {token : Token}
    {failure : Failure}
    (hCloses : token.closes group.closeTag.text)
    (hClose :
      group.close path draft token =
        .error (.rejected failure)) :
    ∃ cause,
      group.Halts draft before (token :: rest) cause ∧
        failure =
          (Production.ofSection group).failure path cause := by
  unfold close at hClose
  split at hClose
  · cases hFinish : group.finish draft <;>
      simp [hFinish, Except.mapError] at hClose
  · rename_i hMissing
    split at hClose
    · cases hClose
    · rename_i hSubject
      cases hClose
      exact ⟨_, .incomplete hCloses hMissing hSubject, rfl⟩

/-
  A section that is refused has set marks and met a token that
  it cannot go on with.
-/
theorem halts_of_proceed
    {group : Section}
    {frames : Frames}
    {draft : Draft}
    {before rest : List Token}
    {failure : Failure}
    (hProceed :
      group.proceed frames draft before rest =
        .error (.rejected failure)) :
    ∃ flags tail final cause,
      rest = flags ++ tail ∧
        group.SetsMarks draft flags final ∧
        group.Halts final (flags.reverse ++ before) tail
          cause ∧
        failure =
          (Production.ofSection group).failure frames.chain
            cause := by
  rcases group.proceed_past_marks frames draft before rest with
    ⟨flags, tail, final, rfl, hMarks, hTail, hPast⟩
  refine ⟨flags, tail, final, ?_⟩
  rw [hPast] at hProceed
  cases tail with
  | nil =>
      cases hProceed
      exact ⟨_, rfl, hMarks, .endOfInput, rfl⟩
  | cons token tail =>
      rw [proceed] at hProceed
      cases hRead : group.read token with
      | close =>
          simp only [hRead] at hProceed
          split at hProceed
          · rename_i hClose
            cases hProceed
            rcases halts_of_close
                (read_eq_close_iff.mp hRead) hClose with
              ⟨cause, hHalts, hFailure⟩
            exact ⟨cause, rfl, hMarks, hHalts, hFailure⟩
          · cases hProceed
      | opening tag child =>
          rcases read_eq_opening_iff.mp hRead with
            ⟨hOpens, hChild⟩
          simp only [hRead] at hProceed
          split at hProceed
          · rename_i hPrior
            cases hProceed
            exact ⟨_, rfl, hMarks,
              .child hOpens hChild hPrior, rfl⟩
          · cases hProceed
      | mark tag =>
          rcases read_eq_mark_iff.mp hRead with ⟨hFlag, hMark⟩
          have hSet := hTail token rfl tag hRead
          simp only [hRead, hSet, if_true] at hProceed
          cases hProceed
          exact ⟨_, rfl, hMarks, .mark hFlag hMark hSet, rfl⟩
      | stray =>
          simp only [hRead] at hProceed
          cases hProceed
          exact ⟨_, rfl, hMarks, .stray hRead, rfl⟩

/- What halts a section as a redefinition gives a part again. -/
theorem Halts.regives
    {group : Section}
    {draft : Draft}
    {before rest : List Token}
    {cause : Cause}
    (hHalts : group.Halts draft before rest cause)
    {prior : Option Fragment}
    (hKind : cause.kind = .duplication prior) :
    ∃ token tail,
      rest = token :: tail ∧
        group.Regives draft token prior ∧
        cause.token? = some token := by
  cases hHalts with
  | endOfInput => cases hKind
  | child hOpens hChild hPrior =>
      cases hKind
      unfold prior? at hPrior
      split at hPrior
      · cases hPrior
      · rename_i hSingle
        exact ⟨_, _, rfl,
          .child hOpens hChild (by simpa using hSingle) hPrior,
          rfl⟩
  | mark hMarks hMark hSet =>
      cases hKind
      exact ⟨_, _, rfl, .mark hMarks hMark hSet, rfl⟩
  | incomplete => cases hKind
  | stray => cases hKind

/-
  A section that is stopped by a redefinition has set marks and
  met a token that gives a part again.
-/
theorem regives_of_proceed
    {group : Section}
    {frames : Frames}
    {draft : Draft}
    {before rest : List Token}
    {failure : Failure}
    {prior : Option Fragment}
    (hProceed :
      group.proceed frames draft before rest =
        .error (.rejected failure))
    (hKind : failure.kind = .duplication prior) :
    ∃ flags token tail final,
      rest = flags ++ token :: tail ∧
        group.SetsMarks draft flags final ∧
        group.Regives final token prior ∧
        failure.token = some token := by
  rcases halts_of_proceed hProceed with
    ⟨flags, tail, final, cause, rfl, hMarks, hHalts, rfl⟩
  rcases hHalts.regives hKind with
    ⟨token, later, rfl, hRegives, hToken⟩
  exact ⟨flags, token, later, final, rfl, hMarks, hRegives,
    hToken⟩

end Section

/- A leaf that is refused has met what it cannot go on with. -/
theorem Leaf.halts_of_proceed
    {leaf : Leaf}
    {frames : Frames}
    {cursor : Cursor}
    {failure : Failure}
    (hProceed :
      leaf.proceed frames cursor = .error (.rejected failure)) :
    ∃ cause,
      leaf.Halts cursor.before cursor.rest cause ∧
        failure =
          (Production.ofLeaf leaf).failure frames.chain
            cause := by
  have hContent :
      Code.IsContent
        (cursor.rest.takeWhile Token.isContent) := by
    intro token hToken
    have hKind :=
      List.all_eq_true.mp List.all_takeWhile token hToken
    simpa [Token.isContent] using hKind
  have hRest :=
    List.takeWhile_append_dropWhile
      (p := Token.isContent) (l := cursor.rest)
  have hFirst :=
    List.head?_dropWhile_not Token.isContent cursor.rest
  unfold proceed at hProceed
  generalize cursor.rest.takeWhile Token.isContent = code
    at hContent hRest hProceed
  generalize cursor.rest.dropWhile Token.isContent = tail
    at hRest hFirst hProceed
  rw [← hRest]
  cases tail with
  | nil =>
      cases hProceed
      rw [List.append_nil]
      exact ⟨_, .endOfInput hContent, rfl⟩
  | cons token rest =>
      dsimp only at hProceed
      split at hProceed
      · rename_i hCloses
        split at hProceed
        · rename_i complaint hBuild
          cases hProceed
          exact ⟨_, .malformed hContent hCloses hBuild, rfl⟩
        · cases hProceed
      · rename_i hOpen
        cases hProceed
        exact ⟨_, .unexpected hContent (by simpa using hFirst)
          (by simpa using hOpen), rfl⟩

/- A leaf does not fail for a redefinition. -/
theorem Leaf.Halts.kind_ne
    {leaf : Leaf}
    {before rest : List Token}
    {cause : Cause}
    (hHalts : leaf.Halts before rest cause)
    (prior : Option Fragment) :
    cause.kind ≠ .duplication prior := by
  cases hHalts <;> exact nofun

namespace Step

/-
  The failure is found at the step: a section that the step is
  handed to sets marks and is stopped behind them, or a leaf
  that the step enters is stopped.
-/
inductive HaltsAt
    (failure : Failure) :
    Step → Prop
  | group
      {step : Step}
      {group : Section}
      {frames : Frames}
      {draft final : Draft}
      {flags tail : List Token}
      {cause : Cause}
      (hHands : step.Hands group frames draft)
      (hRest : step.cursor.rest = flags ++ tail)
      (hMarks : group.SetsMarks draft flags final)
      (hHalts :
        group.Halts final
          (flags.reverse ++ step.cursor.before) tail cause)
      (hFailure :
        failure =
          (Production.ofSection group).failure frames.chain
            cause) :
      HaltsAt failure step
  | leaf
      {leaf : Leaf}
      {cursor : Cursor}
      {frames : Frames}
      {cause : Cause}
      (hHalts : leaf.Halts cursor.before cursor.rest cause)
      (hFailure :
        failure =
          (Production.ofLeaf leaf).failure frames.chain
            cause) :
      HaltsAt failure
        (.enter (Production.ofLeaf leaf).id cursor frames)

/- A step that is refused finds the failure. -/
theorem haltsAt_of_next
    {step : Step}
    {failure : Failure}
    (hNext : step.next = .error (.rejected failure)) :
    step.HaltsAt failure := by
  have hSound : step.Sound := by
    intro fault hFault
    rw [hNext] at hFault
    cases hFault
    exact ⟨failure, rfl⟩
  rcases hSound.hands_or_leaf with
    ⟨group, frames, draft, hHands⟩ |
      ⟨leaf, cursor, frames, rfl⟩ | ⟨cursor, fragment, rfl⟩
  · rw [hHands.next_eq] at hNext
    rcases Section.halts_of_proceed
        (Progress.eq_error_of_map hNext) with
      ⟨flags, tail, final, cause, hRest, hMarks, hHalts,
        hFailure⟩
    exact .group hHands hRest hMarks hHalts hFailure
  · simp only [next, Production.ofId?_id, Production.start]
      at hNext
    rcases Leaf.halts_of_proceed
        (Progress.eq_error_of_map hNext) with
      ⟨cause, hHalts, hFailure⟩
    exact .leaf hHalts hFailure
  · cases hNext

/- A run that is refused comes to the step that finds why. -/
theorem haltsAt_of_run
    {start : Step}
    {failure : Failure}
    (hRun : start.run = .error (.rejected failure)) :
    ∃ step ∈ start.dispatched, step.HaltsAt failure := by
  induction start using run_induction with
  | last step hLast =>
      refine ⟨step, by simp [dispatched_of_last hLast], ?_⟩
      apply haltsAt_of_next
      rw [run] at hRun
      split at hRun
      · rename_i hFault
        cases hRun
        exact hFault
      · cases hRun
      · exact absurd ‹_› (hLast _)
  | more step later hNext ih =>
      rw [run_of_more hNext] at hRun
      rcases ih hRun with ⟨found, hFound, hHalts⟩
      refine ⟨found, ?_, hHalts⟩
      rw [dispatched_of_more hNext]
      exact List.mem_cons_of_mem step hFound

/-
  A run that ends with a redefinition comes to a section that
  meets, behind marks it sets, a token that gives a part again.
-/
theorem regives_of_run
    {start : Step}
    {failure : Failure}
    {prior : Option Fragment}
    (hRun : start.run = .error (.rejected failure))
    (hKind : failure.kind = .duplication prior) :
    ∃ step ∈ start.dispatched,
      ∃ group frames draft flags token tail final,
        step.Hands group frames draft ∧
          step.cursor.rest = flags ++ token :: tail ∧
          group.SetsMarks draft flags final ∧
          group.Regives final token prior ∧
          failure.token = some token := by
  rcases haltsAt_of_run hRun with ⟨step, hStep, hFound⟩
  refine ⟨step, hStep, ?_⟩
  cases hFound with
  | leaf hHalts hFailure =>
      rw [hFailure] at hKind
      exact absurd hKind (hHalts.kind_ne prior)
  | group hHands hRest hMarks hHalts hFailure =>
      subst hFailure
      rcases hHalts.regives hKind with
        ⟨token, tail, rfl, hRegives, hToken⟩
      exact ⟨_, _, _, _, token, tail, _, hHands, hRest, hMarks,
        hRegives, hToken⟩

/- At the end of the tokens nothing but more is asked for. -/
theorem kind_of_run_at_end
    {step : Step}
    (hEnd : step.cursor.rest = [])
    {failure : Failure}
    (hRun : step.run = .error (.rejected failure)) :
    failure.kind = .structural := by
  have hLast : ∀ later, step.next ≠ .ok (.more later) := by
    intro later hNext
    have hWithin := within_of_next hNext
    rw [hEnd] at hWithin
    exact Nat.not_lt_zero _ hWithin
  rcases haltsAt_of_run hRun with ⟨found, hFound, hHaltsAt⟩
  rw [dispatched_of_last hLast, List.mem_singleton] at hFound
  subst hFound
  cases hHaltsAt with
  | group _ hRest _ hHalts hFailure =>
      rw [hEnd] at hRest
      rcases List.append_eq_nil_iff.mp hRest.symm with ⟨_, rfl⟩
      rw [hFailure]
      cases hHalts
      rfl
  | @leaf _ cursor _ _ hHalts hFailure =>
      rw [hFailure]
      have hNone : cursor.rest = [] := hEnd
      generalize cursor.rest = rest at hHalts hNone
      cases hHalts with
      | endOfInput => rfl
      | unexpected => simp at hNone
      | malformed => simp at hNone

end Step

------------------------------------------------------------
-- Redefinition Behind Pieces
------------------------------------------------------------

namespace Section

variable {group : Section}
variable {pieces : List Piece}

/-
  A section inside frames that has read the pieces stops at the
  token, whatever comes after it, because the token gives a
  part again.
-/
def RedefinesAt
    (group : Section)
    (frames : Frames)
    (before : List Token)
    (pieces : List Piece)
    (token : Token)
    (prior : Option Fragment) : Prop :=
  ∃ failure : Failure,
    failure.kind = .duplication prior ∧
      failure.token = some token ∧
      ∀ after,
        (Step.enter group.id
            ⟨before,
              pieces.flatMap Piece.tokens ++ token :: after⟩
            frames).run =
          .error (.rejected failure)

/- The machine takes in pieces that fit and reads on. -/
theorem run_pieces
    (hFits : ∀ piece ∈ pieces, piece.Fits group)
    (hOnce : group.SetsOnce (.ofPieces pieces))
    (frames : Frames)
    (before later : List Token) :
    (Step.enter group.id
        ⟨before, pieces.flatMap Piece.tokens ++ later⟩
        frames).run =
      (group.proceed frames (.ofPieces pieces)
        ((pieces.flatMap Piece.tokens).reverse ++ before)
        later).bind Step.run := by
  have hStarts : ∀ piece ∈ pieces, piece.StartsIn group :=
    fun piece hPiece => (hFits piece hPiece).startsIn
  have hReads :
      ∀ opener inside tag fragment child,
        Piece.child opener inside tag fragment ∈ pieces →
          group.child? tag = some child →
            child.production.Reads inside fragment := by
    intro opener inside tag fragment child hPiece hChild
    exact Production.reads_of_derives
      ((hFits _ hPiece).derives hChild)
  have hAll : group.SetsOnce (.ofPieces ([] ++ pieces)) :=
    hOnce
  have hParse :=
    parse_pieces hStarts hReads hAll frames.chain before later
  have hEnter :=
    Step.run_enter (.ofSection group)
      ⟨before, pieces.flatMap Piece.tokens ++ later⟩ frames
  rw [Production.parse_ofSection] at hEnter
  rw [run_proceed]
  exact hEnter.trans (congrArg frames.receive hParse)

/-
  Behind pieces that fit, a redefinition is found exactly at a
  token that gives a part of theirs again.
-/
theorem redefinesAt_iff
    (hFits : ∀ piece ∈ pieces, piece.Fits group)
    (hOnce : group.SetsOnce (.ofPieces pieces))
    (frames : Frames)
    (before : List Token)
    (token : Token)
    (prior : Option Fragment) :
    group.RedefinesAt frames before pieces token prior ↔
      group.Refills pieces token prior := by
  have hPieces := run_pieces hFits hOnce frames before
  constructor
  · rintro ⟨failure, hKind, _, hRun⟩
    -- With nothing after it, the token itself is at fault.
    have hStop := hRun []
    rw [hPieces] at hStop
    cases hProceed : group.proceed frames (.ofPieces pieces)
        ((pieces.flatMap Piece.tokens).reverse ++ before)
        [token] with
    | ok later =>
        rw [hProceed] at hStop
        have hEnd : later.cursor.rest = [] := by
          have hWithin := within_of_proceed hProceed
          exact List.eq_nil_of_length_eq_zero
            (Nat.lt_one_iff.mp hWithin)
        have hOther := Step.kind_of_run_at_end hEnd hStop
        rw [hKind] at hOther
        cases hOther
    | error fault =>
        rw [hProceed] at hStop
        cases hStop
        rcases regives_of_proceed hProceed hKind with
          ⟨flags, found, tail, final, hRest, hMarks, hRegives,
            _⟩
        cases flags with
        | cons flag flags => simp at hRest
        | nil =>
            cases hRest
            cases hMarks
            exact hRegives.refills hFits hOnce
  · intro hRefills
    cases hRefills with
    | child hOpens hChild hSingle hPiece hStores =>
        rename_i tag child piece value
        have hPrior :=
          (prior?_ofPieces_iff hFits hOnce hChild).mpr
            ⟨hSingle, piece, hPiece, hStores⟩
        refine
          ⟨(Production.ofSection group).failure frames.chain
              (.redefined child.label (some value) token),
            rfl, rfl, fun after => ?_⟩
        rw [hPieces, proceed,
          read_eq_opening_iff.mpr ⟨hOpens, hChild⟩]
        simp only [hPrior]
        rfl
    | mark hMarks hMark hPiece =>
        rename_i tag flag
        have hSet :=
          Draft.marked_ofPieces_iff.mpr ⟨flag, hPiece⟩
        refine
          ⟨(Production.ofSection group).failure frames.chain
              (.redefined tag.text none token),
            rfl, rfl, fun after => ?_⟩
        rw [hPieces, proceed,
          read_eq_mark_iff.mpr ⟨hMarks, hMark⟩]
        simp only [hSet, if_true]
        rfl

/- Where pieces give a part twice, the second one refills. -/
theorem refills_of_not_setsOnce
    {piece : Piece}
    (hFits : ∀ other ∈ pieces ++ [piece], other.Fits group)
    (hOnce : group.SetsOnce (.ofPieces pieces))
    (hTwice :
      ¬ group.SetsOnce (.ofPieces (pieces ++ [piece]))) :
    ∃ token inside prior,
      piece.tokens = token :: inside ∧
        group.Refills pieces token prior := by
  have hBefore : ∀ other ∈ pieces, other.Fits group :=
    fun other hOther =>
      hFits other (List.mem_append_left [piece] hOther)
  have hPiece : piece.Fits group :=
    hFits piece (List.mem_concat_self)
  cases hPiece with
  | child hOpens hChild hDerives =>
      rename_i opener inside tag fragment child
      have hDraft :
          Draft.ofPieces
              (pieces ++ [.child opener inside tag fragment]) =
            (Draft.ofPieces pieces).add (.child tag fragment) :=
        Draft.ofPieces_concat pieces rfl
      rw [hDraft] at hTwice
      cases hPrior :
          group.prior? (.ofPieces pieces) child with
      | none =>
          exact absurd
            (hOnce.add_child (isTyped_ofPieces hBefore) hChild
              hPrior fragment)
            hTwice
      | some value =>
          rcases (prior?_ofPieces_iff hBefore hOnce hChild).mp
              hPrior with
            ⟨hSingle, other, hOther, hStores⟩
          exact ⟨opener, inside, some value, rfl,
            .child hOpens hChild hSingle hOther hStores⟩
  | mark hMarks hMark =>
      rename_i token tag
      have hDraft :
          Draft.ofPieces (pieces ++ [.mark token tag]) =
            (Draft.ofPieces pieces).add (.mark tag) :=
        Draft.ofPieces_concat pieces rfl
      rw [hDraft] at hTwice
      cases hSet : (Draft.ofPieces pieces).marked tag with
      | false => exact absurd (hOnce.add_mark hSet) hTwice
      | true =>
          rcases Draft.marked_ofPieces_iff.mp hSet with
            ⟨flag, hFlag⟩
          exact ⟨token, [], none, rfl,
            .mark hMarks hMark hFlag⟩

/-
  Pieces that give a part twice are not all taken in: the first
  token that gives a part again is refused.
-/
theorem redefinesAt_of_not_setsOnce
    (hFits : ∀ piece ∈ pieces, piece.Fits group)
    (hTwice : ¬ group.SetsOnce (.ofPieces pieces))
    (frames : Frames)
    (before : List Token) :
    ∃ done token later prior,
      pieces.flatMap Piece.tokens =
          done.flatMap Piece.tokens ++ token :: later ∧
        group.RedefinesAt frames before done token prior := by
  induction pieces using List.reverseRecOn with
  | nil => exact absurd group.setsOnce_empty hTwice
  | append_singleton done piece ih =>
      have hBefore : ∀ other ∈ done, other.Fits group :=
        fun other hOther =>
          hFits other (List.mem_append_left [piece] hOther)
      by_cases hOnce : group.SetsOnce (.ofPieces done)
      · rcases refills_of_not_setsOnce hFits hOnce hTwice with
          ⟨token, inside, prior, hTokens, hRefills⟩
        exact ⟨done, token, inside, prior,
          by simp [hTokens],
          (redefinesAt_iff hBefore hOnce frames before token
            prior).mpr hRefills⟩
      · rcases ih hBefore hOnce with
          ⟨first, token, later, prior, hTokens, hRedefines⟩
        exact ⟨first, token, later ++ piece.tokens, prior,
          by simp [hTokens], hRedefines⟩

/- A child whose field is free is entered. -/
theorem run_child
    (hFits : ∀ piece ∈ pieces, piece.Fits group)
    (hOnce : group.SetsOnce (.ofPieces pieces))
    (frames : Frames)
    (before after : List Token)
    {token : Token}
    {tag : Tag}
    {child : Child}
    (hOpens : token.opens tag.text)
    (hChild : group.child? tag = some child)
    (hFree : ∀ prior, ¬ group.Refills pieces token prior) :
    (Step.enter group.id
        ⟨before, pieces.flatMap Piece.tokens ++ token :: after⟩
        frames).run =
      (Step.enter child.production.id
        ⟨token ::
            ((pieces.flatMap Piece.tokens).reverse ++ before),
          after⟩
        (⟨group.id, tag.text, .ofPieces pieces⟩ ::
          frames)).run := by
  have hPrior :
      group.prior? (.ofPieces pieces) child = none := by
    cases hValue : group.prior? (.ofPieces pieces) child with
    | none => rfl
    | some value =>
        rcases (prior?_ofPieces_iff hFits hOnce hChild).mp
            hValue with
          ⟨hSingle, piece, hPiece, hStores⟩
        exact absurd
          (.child hOpens hChild hSingle hPiece hStores)
          (hFree (some value))
  rw [run_pieces hFits hOnce, proceed,
    read_eq_opening_iff.mpr ⟨hOpens, hChild⟩]
  simp only [hPrior]
  rfl

end Section

/-
  The failure is at a token of the stream that gives a part
  again, behind pieces of a section that have given it.
-/
def Failure.Refills
    (failure : Failure)
    (stream : List Token)
    (prior : Option Fragment) : Prop :=
  ∃ (group : Section) (place : Cursor) (pieces : List Piece)
      (token : Token) (after : List Token),
    place.tokens = stream ∧
      place.rest =
        pieces.flatMap Piece.tokens ++ token :: after ∧
      (∀ piece ∈ pieces, piece.Fits group) ∧
      group.SetsOnce (.ofPieces pieces) ∧
      group.Refills pieces token prior ∧
      failure.token = some token

/-
  A production that fails for a redefinition has a section that
  reads pieces and then a token that gives a part of theirs
  again. The induction is on the sections around the failure.
-/
theorem Production.Fails.refills
    {production : Production}
    {path : List String}
    {cursor : Cursor}
    {failure : Failure}
    (hFails : production.Fails path cursor failure)
    {prior : Option Fragment}
    (hKind : failure.kind = .duplication prior) :
    failure.Refills cursor.tokens prior := by
  induction hFails with
  | leaf hHalts => exact absurd hKind (hHalts.kind_ne prior)
  | @group group path cursor place pieces cause hFits hOnce
      hCovers hHalts =>
      rcases hHalts.regives hKind with
        ⟨token, after, hRest, hRegives, hToken⟩
      refine ⟨group, cursor, pieces, token, after, rfl, ?_,
        hFits, hOnce, hRegives.refills hFits hOnce, hToken⟩
      rw [← hRest]
      exact hCovers.rest
  | child _ _ hCovers _ _ _ _ ih =>
      rcases ih hKind with
        ⟨group, place, pieces, token, after, hTokens, hFound⟩
      refine ⟨group, place, pieces, token, after, ?_, hFound⟩
      rw [hTokens]
      simp [Cursor.tokens, hCovers.before, hCovers.rest]

/- A run without frames gives a part again in its stream. -/
theorem Step.refills_of_run
    {production : Production}
    {cursor : Cursor}
    {failure : Failure}
    {prior : Option Fragment}
    (hRun :
      (enter production.id cursor []).run =
        .error (.rejected failure))
    (hKind : failure.kind = .duplication prior) :
    failure.Refills cursor.tokens prior := by
  rw [run_enter_nil] at hRun
  rcases Production.fails_of_parse hRun with
    ⟨found, hFound, hFails⟩
  cases hFound
  exact hFails.refills hKind

/- A trait that is refused gives a part again in its stream. -/
theorem TraitDecl.refills_of_ofTokens
    {tokens : List Token}
    {failure : Failure}
    {prior : Option Fragment}
    (hTokens : ofTokens tokens = .error (.rejected failure))
    (hKind : failure.kind = .duplication prior) :
    failure.Refills tokens prior := by
  rcases refused_of_ofTokens hTokens with
    ⟨found, hFound, hRefused⟩
  cases hFound
  cases hRefused with
  | nothing hFault =>
      cases hFault
      cases hKind
  | noTrait _ hFault =>
      cases hFault
      cases hKind
  | inside _ hFails => exact hFails.refills hKind
  | extraneous _ _ hFault =>
      cases hFault
      cases hKind

------------------------------------------------------------
-- Single Occurrence
------------------------------------------------------------

/-
  What may occur once in a section is given once. Behind pieces
  that the section takes in, a token is refused as giving a part
  again exactly when one of them has given it, and otherwise a
  child is entered. Pieces that give a part twice are not taken
  in. No run ends with such a refusal for another reason, and no
  delivery to a frame that the run has put up overwrites a
  value. Frames that are handed in at the start are not checked;
  without them, no delivery at all overwrites one.
-/
theorem Section.redefinition :
    (∀ (group : Section)
        (frames : Frames)
        (before : List Token)
        (pieces : List Piece)
        (token : Token),
      (∀ piece ∈ pieces, piece.Fits group) →
        group.SetsOnce (.ofPieces pieces) →
          (∀ prior,
            group.RedefinesAt frames before pieces token
                prior ↔
              group.Refills pieces token prior) ∧
          (∀ tag child,
            token.opens tag.text →
              group.child? tag = some child →
                (∀ prior, ¬ group.Refills pieces token prior) →
                  ∀ after,
                    (Step.enter group.id
                        ⟨before,
                          pieces.flatMap Piece.tokens ++
                            token :: after⟩
                        frames).run =
                      (Step.enter child.production.id
                        ⟨token ::
                            ((pieces.flatMap
                              Piece.tokens).reverse ++ before),
                          after⟩
                        (⟨group.id, tag.text,
                          .ofPieces pieces⟩ :: frames)).run)) ∧
    (∀ (group : Section)
        (frames : Frames)
        (before : List Token)
        (pieces : List Piece),
      (∀ piece ∈ pieces, piece.Fits group) →
        ¬ group.SetsOnce (.ofPieces pieces) →
          ∃ done token later prior,
            pieces.flatMap Piece.tokens =
                done.flatMap Piece.tokens ++ token :: later ∧
              group.RedefinesAt frames before done token
                prior) ∧
    (∀ (start : Step)
        (failure : Failure)
        (prior : Option Fragment),
      start.run = .error (.rejected failure) →
        failure.kind = .duplication prior →
          ∃ step ∈ start.dispatched,
            ∃ group frames draft flags token tail final,
              step.Hands group frames draft ∧
                step.cursor.rest = flags ++ token :: tail ∧
                group.SetsMarks draft flags final ∧
                group.Regives final token prior ∧
                failure.token = some token) ∧
    (∀ (production : Production)
        (cursor : Cursor)
        (failure : Failure)
        (prior : Option Fragment),
      (Step.enter production.id cursor []).run =
          .error (.rejected failure) →
        failure.kind = .duplication prior →
          failure.Refills cursor.tokens prior) ∧
    (∀ (tokens : List Token)
        (failure : Failure)
        (prior : Option Fragment),
      TraitDecl.ofTokens tokens = .error (.rejected failure) →
        failure.kind = .duplication prior →
          failure.Refills tokens prior) ∧
    (∀ (start : Step)
        (frame : Frame)
        (outer : Frames)
        (cursor : Cursor)
        (fragment : Fragment),
      .deliver (frame :: outer) cursor fragment ∈
          start.dispatched →
        frame.Waits ∨ frame ∈ start.frames) ∧
    (∀ (start : Step)
        (frame : Frame)
        (outer : Frames)
        (cursor : Cursor)
        (fragment : Fragment),
      start.frames = [] →
        .deliver (frame :: outer) cursor fragment ∈
            start.dispatched →
          frame.Waits) := by
  refine ⟨?_, ?_, ?_, ?_, ?_, ?_, ?_⟩
  · intro group frames before pieces token hFits hOnce
    refine
      ⟨redefinesAt_iff hFits hOnce frames before token, ?_⟩
    intro tag child hOpens hChild hFree after
    exact run_child hFits hOnce frames before after hOpens
      hChild hFree
  · intro group frames before pieces hFits hTwice
    exact redefinesAt_of_not_setsOnce hFits hTwice frames before
  · intro start failure prior hRun hKind
    exact Step.regives_of_run hRun hKind
  · intro production cursor failure prior hRun hKind
    exact Step.refills_of_run hRun hKind
  · intro tokens failure prior hTokens hKind
    exact TraitDecl.refills_of_ofTokens hTokens hKind
  · intro start frame outer cursor fragment hStep
    exact Step.waits_or_mem_of_dispatched hStep
      List.mem_cons_self
  · intro start frame outer cursor fragment hFrames hStep
    rcases Step.waits_or_mem_of_dispatched hStep
        List.mem_cons_self with
      hWaits | hFrame
    · exact hWaits
    · rw [hFrames] at hFrame
      cases hFrame

/- One piece sets nothing twice. -/
theorem Section.setsOnce_singleton
    (group : Section)
    (piece : Piece) :
    group.SetsOnce (.ofPieces [piece]) := by
  constructor
  · intro tag child _ _
    exact List.length_filterMap_le _ _
  · intro tag
    exact List.count_le_length

/-
  A parameter list that is given again though it was empty, and
  an argument given by a pattern after a name. The pattern is
  also refused when nothing is around it, and the name before it
  is taken into an argument that has none.
-/
theorem Section.redefinition_empty_and_sibling :
    let word : Token := ⟨.ident, "node", false, {}⟩
    let paramsTag : Token := .ofOpenTag "params"
    let nameTag : Token := .ofOpenTag "name"
    let nameEnd : Token := .ofCloseTag "name"
    let patTag : Token := .ofOpenTag "pat"
    let list : Piece :=
      .child paramsTag [.ofCloseTag "params"] .params (.args [])
    let name : Piece :=
      .child nameTag [word, nameEnd] .name (.token word)
    let place : Cursor := ⟨[], [nameTag, word, nameEnd, patTag]⟩
    let frame : Frame := ⟨"param", "name", .empty⟩
    let behind : Cursor := ⟨[nameEnd, word, nameTag], [patTag]⟩
    Section.assocFn.RedefinesAt [⟨"trait", "assocfn", .empty⟩]
        [] [list] paramsTag (some (.args [])) ∧
      (∃ done token later prior,
        [list, list].flatMap Piece.tokens =
            done.flatMap Piece.tokens ++ token :: later ∧
          Section.assocFn.RedefinesAt [] [] done token prior) ∧
      Section.param.RedefinesAt [] [] [name] patTag
        (some (.code [word])) ∧
      (∃ failure : Failure,
        (Step.enter "param" place []).run =
            .error (.rejected failure) ∧
          failure.Refills place.tokens
            (some (.code [word]))) ∧
      .deliver [frame] behind (.token word) ∈
        (Step.enter "param" place []).dispatched ∧
      frame.Waits := by
  intro word paramsTag nameTag nameEnd patTag list name place
    frame behind
  have hParams : paramsTag.opens Tag.params.text := by decide
  have hPat : patTag.opens Tag.pat.text := by decide
  have hPiece : list.Fits .assocFn :=
    .child hParams rfl
      (Production.derives_of_fits (fits_nil _)
        (setsOnce_empty _) (.params rfl) (by decide))
  have hList : ∀ piece ∈ [list], piece.Fits .assocFn :=
    List.forall_mem_singleton.mpr hPiece
  have hLists : ∀ piece ∈ [list, list], piece.Fits .assocFn :=
    List.forall_mem_cons.mpr ⟨hPiece, hList⟩
  have hNotOnce :
      ¬ Section.assocFn.SetsOnce (.ofPieces [list, list]) := by
    intro hOnce
    exact absurd (hOnce.1 .params _ rfl rfl) (by decide)
  have hName : ∀ piece ∈ [name], piece.Fits .param :=
    List.forall_mem_singleton.mpr
      (.child (by decide) rfl
        (.leaf (by simp [Code.IsContent, word]) (.name rfl)
          (by decide)))
  rcases redefinition with
    ⟨hAt, hTwice, _, hRuns, _, _, hDeliveries⟩
  have hEmpty :=
    ((hAt .assocFn [⟨"trait", "assocfn", .empty⟩] [] [list]
      paramsTag hList (setsOnce_singleton _ _)).1
        (some (.args []))).mpr
      (.child hParams rfl rfl List.mem_cons_self
        (.intro rfl rfl rfl))
  have hSibling :=
    ((hAt .param [] [] [name] patTag hName
      (setsOnce_singleton _ _)).1 (some (.code [word]))).mpr
      (.child hPat rfl rfl List.mem_cons_self
        (.intro rfl rfl rfl))
  have hEnter :
      (Step.enter "param" place []).next =
        .ok (.more
          (.enter "name" ⟨[nameTag], [word, nameEnd, patTag]⟩
            [frame])) := by
    decide
  have hLeaf :
      (Step.enter "name" ⟨[nameTag], [word, nameEnd, patTag]⟩
          [frame]).next =
        .ok (.more
          (.deliver [frame] behind (.token word))) := by
    decide
  have hDelivered :
      .deliver [frame] behind (.token word) ∈
        (Step.enter "param" place []).dispatched := by
    rw [Step.dispatched_of_more hEnter,
      Step.dispatched_of_more hLeaf, Step.dispatched]
    simp
  have hWaits : frame.Waits :=
    hDeliveries _ frame [] behind _ rfl hDelivered
  refine ⟨hEmpty, hTwice _ [] [] _ hLists hNotOnce, hSibling,
    ?_, hDelivered, hWaits⟩
  rcases hSibling with ⟨failure, hKind, _, hRun⟩
  exact ⟨failure, hRun [],
    hRuns (.ofSection .param) place failure _ (hRun []) hKind⟩

end TraitMarkup
