import TraitMarkup.Proofs.Bracketing

/-
  What a run hands over.

  A production that is entered in front of tokens that derive
  from it hands over the fragment they stand for, right behind
  them. Conversely, every fragment that a run hands over derives
  from the tokens right before it. The sections that wait have
  read pieces up to the tag of the child they wait for; this
  holds at the start and each step keeps it.

  Key definitions include:
    * `Section.Reaches`
    * `Production.HandsOver`
    * `Frames.Await`
    * `Step.Reads`

  Main declarations:
    * `Production.Derives.handsOver`
    * `Step.Reads.next`
    * `Step.derives_of_dispatched`
-/

namespace TraitMarkup

------------------------------------------------------------
-- Steps That A Run Comes To
------------------------------------------------------------

namespace Step

/- A run comes to its own first step. -/
theorem mem_dispatched_self
    (step : Step) :
    step ∈ step.dispatched := by
  rw [dispatched]
  exact List.mem_cons_self

/- A run goes on from a step that it comes to. -/
theorem mem_dispatched_of_next
    {step later target : Step}
    (hNext : step.next = .ok (.more later))
    (hTarget : target ∈ later.dispatched) :
    target ∈ step.dispatched := by
  rw [dispatched_of_more hNext]
  exact List.mem_cons_of_mem step hTarget

/- What a step that is come to comes to is come to. -/
theorem mem_dispatched_trans
    {start step target : Step}
    (hStep : step ∈ start.dispatched)
    (hTarget : target ∈ step.dispatched) :
    target ∈ start.dispatched := by
  rcases List.append_of_mem hStep with ⟨earlier, later, hSplit⟩
  rw [dispatched_eq_of_split hSplit] at hTarget
  rw [hSplit]
  exact List.mem_append_right earlier hTarget

/- A run ends as it does from any step that it comes to. -/
theorem run_eq_of_mem_dispatched
    {start step : Step}
    (hStep : step ∈ start.dispatched) :
    start.run = step.run := by
  induction start using run_induction with
  | last start hLast =>
      rw [dispatched_of_last hLast, List.mem_singleton] at hStep
      rw [hStep]
  | more start later hNext ih =>
      rw [dispatched_of_more hNext, List.mem_cons] at hStep
      rcases hStep with rfl | hLater
      · rfl
      · rw [run_of_more hNext]
        exact ih hLater

/- No step of a run has more tokens left than the first. -/
theorem length_rest_le_of_mem_dispatched
    {start step : Step}
    (hStep : step ∈ start.dispatched) :
    step.cursor.rest.length ≤ start.cursor.rest.length := by
  induction start using run_induction with
  | last start hLast =>
      rw [dispatched_of_last hLast, List.mem_singleton] at hStep
      exact Nat.le_of_eq (by rw [hStep])
  | more start later hNext ih =>
      rw [dispatched_of_more hNext, List.mem_cons] at hStep
      rcases hStep with rfl | hLater
      · exact Nat.le_refl _
      · exact Nat.le_trans (ih hLater)
          (Nat.le_of_lt (within_of_next hNext))

/- The steps of a run have different numbers of tokens left. -/
theorem eq_of_mem_dispatched
    {start step other : Step}
    (hStep : step ∈ start.dispatched)
    (hOther : other ∈ start.dispatched)
    (hLength :
      step.cursor.rest.length = other.cursor.rest.length) :
    step = other := by
  induction start using run_induction with
  | last start hLast =>
      rw [dispatched_of_last hLast, List.mem_singleton]
        at hStep hOther
      rw [hStep, hOther]
  | more start later hNext ih =>
      have hWithin := within_of_next hNext
      rw [Within] at hWithin
      rw [dispatched_of_more hNext, List.mem_cons]
        at hStep hOther
      rcases hStep with rfl | hStep
      · rcases hOther with rfl | hOther
        · rfl
        · have hLater := length_rest_le_of_mem_dispatched hOther
          omega
      · rcases hOther with rfl | hOther
        · have hLater := length_rest_le_of_mem_dispatched hStep
          omega
        · exact ih hStep hOther

end Step

/- A section that reads on comes to a step. -/
def Section.Reaches
    (group : Section)
    (frames : Frames)
    (draft : Draft)
    (before rest : List Token)
    (target : Step) : Prop :=
  ∃ first,
    group.proceed frames draft before rest = .ok first ∧
      target ∈ first.dispatched

/- The step comes to what the section comes to. -/
theorem Section.Reaches.mem_dispatched
    {group : Section}
    {frames : Frames}
    {draft : Draft}
    {step target : Step}
    (hReaches :
      group.Reaches frames draft step.cursor.before
        step.cursor.rest target)
    (hHands : step.Hands group frames draft) :
    target ∈ step.dispatched := by
  rcases hReaches with ⟨first, hProceed, hTarget⟩
  have hNext : step.next = .ok (.more first) := by
    rw [hHands.next_eq, hProceed]
    rfl
  exact Step.mem_dispatched_of_next hNext hTarget

------------------------------------------------------------
-- Everything Derived Is Handed Over
------------------------------------------------------------

/-
  The production, wherever it is entered in front of the
  tokens, hands the fragment over right behind them.
-/
def Production.HandsOver
    (production : Production)
    (tokens : List Token)
    (fragment : Fragment) : Prop :=
  ∀ frames before later,
    .deliver frames ⟨tokens.reverse ++ before, later⟩
        fragment ∈
      (Step.enter production.id ⟨before, tokens ++ later⟩
        frames).dispatched

/- A leaf hands over what it holds. -/
theorem Leaf.handsOver_of_holds
    {leaf : Leaf}
    {code : Code}
    {close : Token}
    {fragment : Fragment}
    (hContent : code.IsContent)
    (hHolds : leaf.Holds code fragment)
    (hClose : close.closes leaf.closeTag.text) :
    (Production.ofLeaf leaf).HandsOver (code ++ [close])
      fragment := by
  intro frames before later
  have hCode : ∀ token ∈ code, token.isContent = true := by
    intro token hToken
    simpa [Token.isContent] using hContent token hToken
  have hEnd : close.isContent = false := by
    simp only [Token.closes, Bool.and_eq_true,
      decide_eq_true_eq] at hClose
    simp [Token.isContent, hClose.1]
  have hProceed :
      leaf.proceed frames ⟨before, code ++ [close] ++ later⟩ =
        .ok (.deliver frames
          ⟨(code ++ [close]).reverse ++ before, later⟩
          fragment) := by
    simp [proceed, List.takeWhile_append_of_pos hCode,
      List.dropWhile_append_of_pos hCode, hEnd, hClose,
      build_eq_ok_iff.mpr hHolds, Cursor.past]
  refine Step.mem_dispatched_of_next ?_
    (Step.mem_dispatched_self _)
  simp only [Step.next, Production.ofId?_id, Production.start,
    hProceed]
  rfl

/-
  A section takes in piece after piece. The single fields are
  free because the whole list of pieces sets each of them once.
-/
theorem Section.reaches_of_pieces
    {group : Section}
    {pieces done : List Piece}
    (hStarts : ∀ piece ∈ pieces, piece.StartsIn group)
    (hInside :
      ∀ opener inside tag fragment child,
        Piece.child opener inside tag fragment ∈ pieces →
          group.child? tag = some child →
            child.production.HandsOver inside fragment)
    (hOnce : group.SetsOnce (.ofPieces (done ++ pieces)))
    {frames : Frames}
    {before later : List Token}
    {target : Step}
    (hReaches :
      group.Reaches frames (.ofPieces (done ++ pieces))
        ((pieces.flatMap Piece.tokens).reverse ++ before)
        later target) :
    group.Reaches frames (.ofPieces done) before
      (pieces.flatMap Piece.tokens ++ later) target := by
  induction pieces generalizing done before with
  | nil => simpa using hReaches
  | cons piece pieces ih =>
      have hAll : done ++ piece :: pieces =
          done ++ [piece] ++ pieces := by simp
      have hNext :
          group.Reaches frames (.ofPieces (done ++ [piece]))
            (piece.tokens.reverse ++ before)
            (pieces.flatMap Piece.tokens ++ later) target := by
        apply ih
        · intro other hOther
          exact hStarts other (List.mem_cons_of_mem piece hOther)
        · intro opener inside tag fragment child hOther
          exact hInside opener inside tag fragment child
            (List.mem_cons_of_mem piece hOther)
        · rw [← hAll]
          exact hOnce
        · rw [← hAll]
          simpa using hReaches
      have hStart := hStarts piece List.mem_cons_self
      cases piece with
      | child opener inside tag fragment =>
          rcases hStart with ⟨hOpens, hSome⟩
          rcases Option.isSome_iff_exists.mp hSome with
            ⟨child, hChild⟩
          have hHandsOver :=
            hInside opener inside tag fragment child
              List.mem_cons_self hChild
          have hProceed :
              group.proceed frames (.ofPieces done) before
                  (opener :: (inside ++
                    (pieces.flatMap Piece.tokens ++ later))) =
                .ok (.enter child.production.id
                  ⟨opener :: before, inside ++
                    (pieces.flatMap Piece.tokens ++ later)⟩
                  (⟨group.id, tag.text, .ofPieces done⟩ ::
                    frames)) := by
            rw [proceed,
              read_eq_opening_iff.mpr ⟨hOpens, hChild⟩]
            simp only [SetsOnce.prior?_eq_none hChild hOnce]
          have hDraft :
              Draft.ofPieces
                  (done ++
                    [.child opener inside tag fragment]) =
                (Draft.ofPieces done).add
                  (.child tag fragment) :=
            Draft.ofPieces_concat done rfl
          rw [hDraft] at hNext
          refine ⟨_, by simpa [Piece.tokens] using hProceed, ?_⟩
          refine Step.mem_dispatched_trans
            (hHandsOver _ (opener :: before) _) ?_
          refine Section.Reaches.mem_dispatched ?_
            (.deliver hChild _ _ _ _)
          simpa [Piece.tokens, Step.cursor] using hNext
      | mark token tag =>
          rcases hStart with ⟨hMarks, hMark⟩
          rcases hNext with ⟨first, hProceed, hTarget⟩
          refine ⟨first, ?_, hTarget⟩
          have hDraft :
              Draft.ofPieces (done ++ [.mark token tag]) =
                (Draft.ofPieces done).add (.mark tag) :=
            Draft.ofPieces_concat done rfl
          rw [hDraft] at hProceed
          simp only [List.flatMap_cons, Piece.tokens,
            List.cons_append, List.nil_append]
          rw [proceed, read_eq_mark_iff.mpr ⟨hMarks, hMark⟩]
          simp only [SetsOnce.marked_eq_false hOnce]
          simpa [Piece.tokens] using hProceed

/- A section hands over what its pieces form. -/
theorem Section.reaches_of_forms
    {group : Section}
    {pieces : List Piece}
    {close : Token}
    {fragment : Fragment}
    (hForms : group.Forms (.ofPieces pieces) fragment)
    (hClose : close.closes group.closeTag.text)
    (frames : Frames)
    (before later : List Token) :
    group.Reaches frames (.ofPieces pieces) before
      (close :: later)
      (.deliver frames ⟨close :: before, later⟩ fragment) := by
  refine ⟨_, ?_, Step.mem_dispatched_self _⟩
  rw [proceed, read_eq_close_iff.mpr hClose]
  simp only [close_of_forms hForms]

/-
  A production hands over whatever derives from it. The
  induction is on the derivation.
-/
theorem Production.Derives.handsOver
    {production : Production}
    {tokens : List Token}
    {fragment : Fragment}
    (hDerives : production.Derives tokens fragment) :
    production.HandsOver tokens fragment := by
  induction hDerives with
  | leaf hContent hHolds hClose =>
      exact Leaf.handsOver_of_holds hContent hHolds hClose
  | @group group pieces close fragment hStarts _ hOnce hForms
      hClose ih =>
      intro frames before later
      have hEnd :=
        Section.reaches_of_forms hForms hClose frames
          ((pieces.flatMap Piece.tokens).reverse ++ before)
          later
      have hAll : group.SetsOnce (.ofPieces ([] ++ pieces)) :=
        hOnce
      have hReaches :=
        Section.reaches_of_pieces hStarts ih hAll hEnd
      refine Section.Reaches.mem_dispatched ?_
        (.enter group _ frames)
      simpa [Step.cursor, Draft.ofPieces, Draft.empty] using
        hReaches

------------------------------------------------------------
-- Everything Handed Over Derives
------------------------------------------------------------

/-
  The frames wait, behind some tokens, for a fragment of a
  production. The innermost section has read pieces and the tag
  of that child; the sections around wait for the innermost one.
-/
inductive Frames.Await
    (goal : Production)
    (start : List Token) :
    Production → Frames → List Token → Prop
  | nil :
      Await goal start goal [] start
  | cons
      {group : Section}
      {tag : Tag}
      {child : Child}
      {pieces : List Piece}
      {opener : Token}
      {outer : Frames}
      {before : List Token}
      (hFits : ∀ piece ∈ pieces, piece.Fits group)
      (hOnce : group.SetsOnce (.ofPieces pieces))
      (hOpens : opener.opens tag.text)
      (hChild : group.child? tag = some child)
      (hFree : group.prior? (.ofPieces pieces) child = none)
      (hOuter :
        Await goal start (.ofSection group) outer before) :
      Await goal start child.production
        (⟨group.id, tag.text, .ofPieces pieces⟩ :: outer)
        (opener ::
          ((pieces.flatMap Piece.tokens).reverse ++ before))

/-
  The step has read what the frames wait for, up to its place:
  the tags around the production that is entered, or also the
  tokens that the fragment derives from.
-/
def Step.Reads
    (goal : Production)
    (start : List Token) :
    Step → Prop
  | enter id cursor frames =>
      ∃ production,
        id = production.id ∧
          Frames.Await goal start production frames
            cursor.before
  | deliver frames cursor fragment =>
      ∃ production inside before,
        production.Derives inside fragment ∧
          cursor.before = inside.reverse ++ before ∧
          Frames.Await goal start production frames before

/-
  A section has read pieces, from behind its opening tag up to
  a place, and is awaited by the frames around.
-/
structure Section.HasRead
    (group : Section)
    (goal : Production)
    (start : List Token)
    (frames : Frames)
    (draft : Draft)
    (before : List Token)
    (pieces : List Piece)
    (outside : List Token) : Prop where
  fits : ∀ piece ∈ pieces, piece.Fits group
  setsOnce : group.SetsOnce (.ofPieces pieces)
  draft : draft = .ofPieces pieces
  before :
    before =
      (pieces.flatMap Piece.tokens).reverse ++ outside
  awaited :
    Frames.Await goal start (.ofSection group) frames outside

namespace Section.HasRead

variable {group : Section}
variable {goal : Production}
variable {start : List Token}
variable {frames : Frames}
variable {draft : Draft}
variable {before : List Token}
variable {pieces : List Piece}
variable {outside : List Token}

/- A section goes on with one more piece. -/
theorem concat
    (hRead :
      group.HasRead goal start frames draft before pieces
        outside)
    {piece : Piece}
    (hPiece : piece.Fits group)
    (hMore :
      group.SetsOnce (draft.add piece.entry)) :
    group.HasRead goal start frames (draft.add piece.entry)
      (piece.tokens.reverse ++ before) (pieces ++ [piece])
      outside := by
  have hDraft :
      draft.add piece.entry = .ofPieces (pieces ++ [piece]) := by
    rw [hRead.draft, Draft.ofPieces_concat pieces rfl]
  refine ⟨Piece.fits_concat hRead.fits hPiece, ?_, hDraft, ?_,
    hRead.awaited⟩
  · rw [← hDraft]
    exact hMore
  · rw [hRead.before]
    simp

/- A section goes on with the marks that it sets. -/
theorem marks
    (hRead :
      group.HasRead goal start frames draft before pieces
        outside)
    {flags : List Token}
    {final : Draft}
    (hMarks : group.SetsMarks draft flags final) :
    ∃ more,
      group.HasRead goal start frames final
        (flags.reverse ++ before) more outside := by
  induction hMarks generalizing before pieces with
  | nil => exact ⟨pieces, hRead⟩
  | @cons draft final token tokens tag hMark hFree _ ih =>
      rcases read_eq_mark_iff.mp hMark with ⟨hFlag, hHas⟩
      have hOnce : group.SetsOnce draft := by
        rw [hRead.draft]
        exact hRead.setsOnce
      have hNext :=
        hRead.concat (Piece.Fits.mark hFlag hHas)
          (hOnce.add_mark hFree)
      rcases ih hNext with ⟨more, hMore⟩
      refine ⟨more, ?_⟩
      simpa [Piece.tokens] using hMore

end Section.HasRead

namespace Step.Reads

variable {goal : Production}
variable {start : List Token}

/- The section that a step is handed to has read pieces. -/
theorem of_hands
    {step : Step}
    {group : Section}
    {frames : Frames}
    {draft : Draft}
    (hStep : step.Reads goal start)
    (hHands : step.Hands group frames draft) :
    ∃ pieces outside,
      group.HasRead goal start frames draft step.cursor.before
        pieces outside := by
  cases hHands with
  | enter group cursor frames =>
      rcases hStep with ⟨production, hId, hAwait⟩
      have hSame : production = .ofSection group :=
        Production.eq_of_id_eq hId.symm
      rw [hSame] at hAwait
      exact ⟨[], cursor.before, group.fits_nil,
        group.setsOnce_empty, rfl, rfl, hAwait⟩
  | @deliver group tag child hChild draft frames cursor
      fragment =>
      rcases hStep with
        ⟨production, inside, before, hDerives, hBefore, hAwait⟩
      generalize hFrames :
        (⟨group.id, tag.text, draft⟩ :: frames : Frames) = all
        at hAwait
      cases hAwait with
      | nil => cases hFrames
      | @cons other mark kind pieces opener outer outside hFits
          hOnce hOpens hKind hFree hOuter =>
          rcases List.cons.inj hFrames with ⟨hFrame, rfl⟩
          rcases Frame.eq_of_mk_eq hFrame with
            ⟨rfl, rfl, rfl⟩
          have hRead :
              group.HasRead goal start frames
                (.ofPieces pieces)
                ((pieces.flatMap Piece.tokens).reverse ++
                  outside)
                pieces outside :=
            ⟨hFits, hOnce, rfl, rfl, hOuter⟩
          have hMore :=
            hRead.concat (Piece.Fits.child hOpens hKind hDerives)
              (hOnce.add_child (Section.isTyped_ofPieces hFits)
                hKind hFree fragment)
          refine ⟨pieces ++ [.child opener inside tag fragment],
            outside, ?_⟩
          simpa [Step.cursor, hBefore, Piece.tokens,
            Piece.entry] using hMore

/- What a step leads to has read what its frames wait for. -/
theorem next
    {step later : Step}
    (hStep : step.Reads goal start)
    (hNext : step.next = .ok (.more later)) :
    later.Reads goal start := by
  cases moves_of_next hNext with
  | @leaf leaf cursor place frames code token fragment hCovers
      hContent hCloses hBuild =>
      rcases hStep with ⟨production, hId, hAwait⟩
      rw [← Production.eq_of_id_eq hId] at hAwait
      exact ⟨.ofLeaf leaf, code ++ [token], cursor.before,
        .leaf hContent (Leaf.build_eq_ok_iff.mp hBuild) hCloses,
        hCovers.before, hAwait⟩
  | @group _ _ group frames draft hHands hMoves =>
      rcases hStep.of_hands hHands with
        ⟨pieces, outside, hRead⟩
      cases hMoves with
      | @close final flags token place fragment hMarks hCovers
          hCloses hClose =>
          rcases hRead.marks hMarks with ⟨all, hAll⟩
          have hForms :
              group.Forms (.ofPieces all) fragment := by
            rw [hAll.draft] at hClose
            exact (Section.close_eq_ok_iff
              (Section.isTyped_ofPieces hAll.fits)
              hAll.setsOnce).mp hClose
          refine ⟨.ofSection group,
            all.flatMap Piece.tokens ++ [token], outside,
            Production.derives_of_fits hAll.fits hAll.setsOnce
              hForms hCloses, ?_, hAll.awaited⟩
          have hBefore := hAll.before
          simp [hCovers.before, hBefore]
      | @child final flags token tag child place hMarks hCovers
          hOpens hChild hFree =>
          rcases hRead.marks hMarks with ⟨all, hAll⟩
          have hDraft := hAll.draft
          have hBefore := hAll.before
          subst hDraft
          refine ⟨child.production, rfl, ?_⟩
          have hAwait :=
            Frames.Await.cons hAll.fits hAll.setsOnce hOpens
              hChild hFree hAll.awaited
          simpa [hCovers.before, hBefore] using hAwait

end Step.Reads

/-
  Every fragment that a run hands over derives from the tokens
  right before the place where it does.
-/
theorem Step.derives_of_dispatched
    {goal : Production}
    {start place : Cursor}
    {frames : Frames}
    {fragment : Fragment}
    (hStep :
      .deliver frames place fragment ∈
        (enter goal.id start []).dispatched) :
    ∃ (production : Production) (inside before : List Token),
      production.Derives inside fragment ∧
        place.before = inside.reverse ++ before := by
  rcases List.append_of_mem hStep with ⟨earlier, later, hSplit⟩
  have hStart : (enter goal.id start []).Reads goal start.before :=
    ⟨goal, rfl, .nil⟩
  have hReads :
      (deliver frames place fragment).Reads goal
        start.before :=
    dispatched_invariant
      (fun _ step => step.Reads goal start.before)
      (fun _ _ _ hReads hNext => hReads.next hNext) [] hStart
      hSplit
  rcases hReads with
    ⟨production, inside, before, hDerives, hBefore, _⟩
  exact ⟨production, inside, before, hDerives, hBefore⟩

end TraitMarkup
