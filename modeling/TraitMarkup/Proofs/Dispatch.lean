import TraitMarkup.Proofs.Acceptance

/-
  The steps of a run, one after the other.

  A run takes a step, then the step that comes of it, until
  there is a result or a fault. What one step can lead to is
  said here once: a leaf is closed, a section is closed, or a
  section meets a child. Before it does either, a section may
  set marks. Whatever every such move keeps holds at each step
  of a run.

  Key definitions include:
    * `Step.dispatched`
    * `Section.SetsMarks`
    * `Step.Hands`
    * `Step.Sound`
    * `Section.Moves`
    * `Step.Moves`
    * `Frame.Waits`

  Main declarations:
    * `Step.trace_eq_filter`
    * `Step.dispatched_invariant`
    * `Section.proceed_past_marks`
    * `Step.moves_of_next`
    * `Step.waits_or_mem_of_dispatched`
-/

namespace TraitMarkup

------------------------------------------------------------
-- The Steps Of A Run
------------------------------------------------------------

namespace Step

/- All steps of a run in order, the last one included. -/
def dispatched
    (step : Step) :
    List Step :=
  step ::
    match _ : step.next with
    | .ok (.more later) => later.dispatched
    | _ => []
termination_by step.cursor.rest.length
decreasing_by exact within_of_next (by assumption)

/- A run that goes on has the steps of the rest of it. -/
theorem dispatched_of_more
    {step later : Step}
    (hNext : step.next = .ok (.more later)) :
    step.dispatched = step :: later.dispatched := by
  rw [dispatched]
  split <;> simp_all

/- A run that ends has no further step. -/
theorem dispatched_of_last
    {step : Step}
    (hLast : ∀ later, step.next ≠ .ok (.more later)) :
    step.dispatched = [step] := by
  rw [dispatched]
  split <;> simp_all

/- A run that goes on ends as the rest of it does. -/
theorem run_of_more
    {step later : Step}
    (hNext : step.next = .ok (.more later)) :
    step.run = later.run := by
  have hMap : step.next = (Except.ok later).map .more := hNext
  exact run_of_next hMap

/- A run is a last step, or a step in front of a run. -/
theorem run_induction
    {motive : Step → Prop}
    (last :
      ∀ step,
        (∀ later, step.next ≠ .ok (.more later)) →
          motive step)
    (more :
      ∀ step later,
        step.next = .ok (.more later) →
          motive later → motive step)
    (step : Step) :
    motive step := by
  induction hLength : step.cursor.rest.length
    using Nat.strongRecOn generalizing step with
  | ind length ih =>
      by_cases hNext : ∃ later, step.next = .ok (.more later)
      · rcases hNext with ⟨later, hNext⟩
        have hWithin := within_of_next hNext
        rw [hLength] at hWithin
        exact more step later hNext
          (ih later.cursor.rest.length hWithin later rfl)
      · exact last step fun later hLater =>
          hNext ⟨later, hLater⟩

/- The steps on record are those that productions are given. -/
theorem trace_eq_filter
    (step : Step) :
    step.trace =
      step.dispatched.filter (·.production?.isSome) := by
  induction step using run_induction with
  | last step hLast =>
      have hTrace :
          step.trace =
            if step.production?.isSome then [step] else [] := by
        rw [trace]
        split <;> split <;> simp_all
      rw [dispatched_of_last hLast, hTrace, List.filter_cons,
        List.filter_nil]
  | more step later hNext ih =>
      have hTrace :
          step.trace =
            if step.production?.isSome then
              step :: later.trace
            else later.trace := by
        rw [trace]
        split <;> split <;> simp_all
      rw [dispatched_of_more hNext, hTrace, List.filter_cons,
        ih]

/- The steps from one of the steps on are a run of their own. -/
theorem dispatched_eq_of_split
    {start step : Step}
    {earlier later : List Step}
    (hSplit : start.dispatched = earlier ++ step :: later) :
    step.dispatched = step :: later := by
  induction start using run_induction
    generalizing earlier with
  | last start hLast =>
      have hSteps := dispatched_of_last hLast
      rw [hSteps] at hSplit
      cases earlier with
      | nil =>
          cases hSplit
          exact hSteps
      | cons first earlier => simp at hSplit
  | more start next hNext ih =>
      have hSteps := dispatched_of_more hNext
      rw [hSteps] at hSplit
      cases earlier with
      | nil =>
          cases hSplit
          exact hSteps
      | cons first earlier =>
          exact ih (List.cons.inj hSplit).2

/- A step that is followed by another one leads to it. -/
theorem next_of_split
    {start step next : Step}
    {earlier later : List Step}
    (hSplit :
      start.dispatched = earlier ++ step :: next :: later) :
    step.next = .ok (.more next) := by
  have hSteps := dispatched_eq_of_split hSplit
  by_cases hNext : ∃ other, step.next = .ok (.more other)
  · rcases hNext with ⟨other, hNext⟩
    have hOther : other.dispatched = next :: later := by
      rw [dispatched_of_more hNext] at hSteps
      exact (List.cons.inj hSteps).2
    rw [dispatched] at hOther
    rw [hNext, (List.cons.inj hOther).1]
  · rw [dispatched_of_last fun other hOther =>
      hNext ⟨other, hOther⟩] at hSteps
    cases hSteps

/-
  What holds at the start, and is handed on from each step to
  the next, holds at every step after the steps before it.
-/
theorem dispatched_invariant
    (Inv : List Step → Step → Prop)
    (hNext :
      ∀ earlier step later,
        Inv earlier step →
          step.next = .ok (.more later) →
            Inv (earlier ++ [step]) later)
    {start : Step}
    (past : List Step)
    (hStart : Inv past start)
    {earlier later : List Step}
    {step : Step}
    (hSplit : start.dispatched = earlier ++ step :: later) :
    Inv (past ++ earlier) step := by
  induction start using run_induction
    generalizing past earlier with
  | last start hLast =>
      rw [dispatched_of_last hLast] at hSplit
      cases earlier with
      | nil =>
          cases hSplit
          simpa using hStart
      | cons first earlier => simp at hSplit
  | more start next hMore ih =>
      rw [dispatched_of_more hMore] at hSplit
      cases earlier with
      | nil =>
          cases hSplit
          simpa using hStart
      | cons first earlier =>
          rcases List.cons.inj hSplit with ⟨rfl, hRest⟩
          have hLater :=
            ih (past ++ [start])
              (hNext past start next hStart hMore) hRest
          simpa using hLater

end Step

------------------------------------------------------------
-- Setting Marks
------------------------------------------------------------

/- Tokens that set marks, one after the other. -/
inductive Section.SetsMarks
    (group : Section) :
    Draft → List Token → Draft → Prop
  | nil
      (draft : Draft) :
      SetsMarks group draft [] draft
  | cons
      {draft final : Draft}
      {token : Token}
      {tokens : List Token}
      {tag : Tag}
      (hRead : group.read token = .mark tag)
      (hFree : draft.marked tag = false)
      (hMore :
        SetsMarks group (draft.add (.mark tag)) tokens final) :
      SetsMarks group draft (token :: tokens) final

/- What sets a mark is an empty tag. -/
theorem Section.SetsMarks.kind_ne_closeTag
    {group : Section}
    {draft final : Draft}
    {tokens : List Token}
    (hMarks : group.SetsMarks draft tokens final) :
    ∀ token ∈ tokens, token.kind ≠ .closeTag := by
  induction hMarks with
  | nil => simp
  | cons hRead _ _ ih =>
      intro token hToken
      rcases List.mem_cons.mp hToken with rfl | hLater
      · have hMark := (Section.read_eq_mark_iff.mp hRead).1
        simp only [Token.marks, Bool.and_eq_true,
          decide_eq_true_eq] at hMark
        simp [hMark.1]
      · exact ih token hLater

/-
  A section reads on past the marks that it may set. What comes
  then is no such mark.
-/
theorem Section.proceed_past_marks
    (group : Section)
    (frames : Frames)
    (draft : Draft)
    (before rest : List Token) :
    ∃ flags tail final,
      rest = flags ++ tail ∧
        group.SetsMarks draft flags final ∧
        (∀ token ∈ tail.head?, ∀ tag,
          group.read token = .mark tag → final.marked tag) ∧
        group.proceed frames draft before rest =
          group.proceed frames final
            (flags.reverse ++ before) tail := by
  induction rest generalizing draft before with
  | nil =>
      refine ⟨[], [], draft, rfl, .nil draft, ?_, rfl⟩
      rintro token ⟨⟩
  | cons token rest ih =>
      by_cases hMark :
          ∃ tag, group.read token = .mark tag ∧
            draft.marked tag = false
      · rcases hMark with ⟨tag, hRead, hFree⟩
        rcases ih (draft.add (.mark tag)) (token :: before) with
          ⟨flags, tail, final, rfl, hMarks, hTail, hProceed⟩
        refine ⟨token :: flags, tail, final, rfl,
          .cons hRead hFree hMarks, hTail, ?_⟩
        rw [proceed]
        simp only [hRead, hFree]
        simpa using hProceed
      · refine ⟨[], token :: rest, draft, rfl, .nil draft, ?_,
          rfl⟩
        rintro other ⟨⟩ tag hRead
        by_contra hFree
        exact hMark ⟨tag, hRead, by simpa using hFree⟩

------------------------------------------------------------
-- What A Step Can Do
------------------------------------------------------------

/- A production that goes on leads to a step. -/
theorem Progress.exists_more
    {outcome : Except Fault Step}
    {progress : Progress}
    (hMap : outcome.map .more = .ok progress) :
    ∃ later, outcome = .ok later ∧ progress = .more later := by
  cases outcome with
  | error fault => cases hMap
  | ok later =>
      cases hMap
      exact ⟨later, rfl, rfl⟩

/- A production that does not go on has a fault. -/
theorem Progress.eq_error_of_map
    {outcome : Except Fault Step}
    {fault : Fault}
    (hMap : outcome.map Progress.more = .error fault) :
    outcome = .error fault := by
  cases outcome with
  | error found =>
      cases hMap
      rfl
  | ok later => cases hMap

/-
  The step hands a section what it goes on with: a draft of
  nothing, or the draft that was saved with a child taken in.
-/
inductive Step.Hands :
    Step → Section → Frames → Draft → Prop
  | enter
      (group : Section)
      (cursor : Cursor)
      (frames : Frames) :
      Hands (.enter group.id cursor frames) group frames .empty
  | deliver
      {group : Section}
      {tag : Tag}
      {child : Child}
      (hChild : group.child? tag = some child)
      (draft : Draft)
      (frames : Frames)
      (cursor : Cursor)
      (fragment : Fragment) :
      Hands
        (.deliver (⟨group.id, tag.text, draft⟩ :: frames)
          cursor fragment)
        group frames (draft.add (.child tag fragment))

namespace Step

/- The section reads on with what it was handed. -/
theorem Hands.next_eq
    {step : Step}
    {group : Section}
    {frames : Frames}
    {draft : Draft}
    (hHands : step.Hands group frames draft) :
    step.next =
      (group.proceed frames draft step.cursor.before
        step.cursor.rest).map .more := by
  have hTarget :
      Production.ofId? group.id = some (.ofSection group) :=
    Production.ofId?_id (.ofSection group)
  cases hHands with
  | enter cursor =>
      simp only [next, hTarget]
      rfl
  | deliver hChild draft cursor fragment =>
      simp only [next, hTarget, Production.resume,
        Section.resume, Tag.ofText?_text, hChild]
      rfl

/- The engine has no fault of its own at the step. -/
def Sound
    (step : Step) : Prop :=
  ∀ fault, step.next = .error fault →
    ∃ failure, fault = .rejected failure

/- A sound delivery to a frame is handed to its section. -/
theorem Sound.exists_hands
    {frame : Frame}
    {frames : Frames}
    {cursor : Cursor}
    {fragment : Fragment}
    (hSound :
      (deliver (frame :: frames) cursor fragment).Sound) :
    ∃ group draft,
      (deliver (frame :: frames) cursor fragment).Hands group
        frames draft := by
  rcases frame with ⟨target, resume, draft⟩
  simp only [Sound, next] at hSound
  cases hFound : Production.ofId? target with
  | none =>
      simp only [hFound] at hSound
      rcases hSound _ rfl with ⟨failure, hFailure⟩
      cases hFailure
  | some production =>
      simp only [hFound] at hSound
      have hTarget := Production.id_of_ofId? hFound
      cases production with
      | ofLeaf leaf =>
          rcases hSound _ rfl with ⟨failure, hFailure⟩
          cases hFailure
      | ofSection group =>
          simp only [Production.resume, Section.resume]
            at hSound
          split at hSound
          · rcases hSound _ rfl with ⟨failure, hFailure⟩
            cases hFailure
          · rename_i tag hTag
            split at hSound
            · rcases hSound _ rfl with ⟨failure, hFailure⟩
              cases hFailure
            · rename_i child hChild
              have hText := Tag.text_of_ofText? hTag
              subst hTarget hText
              exact ⟨group, _,
                .deliver hChild draft frames cursor fragment⟩

/-
  A sound step is handed to a section, enters a leaf, or is the
  last one.
-/
theorem Sound.hands_or_leaf
    {step : Step}
    (hSound : step.Sound) :
    (∃ group frames draft, step.Hands group frames draft) ∨
      (∃ leaf cursor frames,
        step = .enter (Production.ofLeaf leaf).id cursor
          frames) ∨
      ∃ cursor fragment,
        step = .deliver [] cursor fragment := by
  cases step with
  | enter id cursor frames =>
      simp only [Sound, next] at hSound
      cases hFound : Production.ofId? id with
      | none =>
          simp only [hFound] at hSound
          rcases hSound _ rfl with ⟨failure, hFailure⟩
          cases hFailure
      | some production =>
          rw [← Production.id_of_ofId? hFound]
          cases production with
          | ofLeaf leaf =>
              exact .inr (.inl ⟨leaf, cursor, frames, rfl⟩)
          | ofSection group =>
              exact .inl ⟨group, frames, .empty,
                .enter group cursor frames⟩
  | deliver frames cursor fragment =>
      cases frames with
      | nil => exact .inr (.inr ⟨cursor, fragment, rfl⟩)
      | cons frame frames =>
          rcases hSound.exists_hands with
            ⟨group, draft, hHands⟩
          exact .inl ⟨group, frames, draft, hHands⟩

end Step

/- What a section that reads on can lead to. -/
inductive Section.Moves
    (group : Section)
    (frames : Frames)
    (draft : Draft)
    (before rest : List Token) :
    Step → Prop
  /- It is closed. -/
  | close
      {final : Draft}
      {flags : List Token}
      {token : Token}
      {place : Cursor}
      {fragment : Fragment}
      (hMarks : group.SetsMarks draft flags final)
      (hCovers :
        Cursor.Covers before rest (flags ++ [token]) place)
      (hCloses : token.closes group.closeTag.text)
      (hClose :
        group.close frames.chain final token = .ok fragment) :
      Moves group frames draft before rest
        (.deliver frames place fragment)
  /- It meets a child and waits for it. -/
  | child
      {final : Draft}
      {flags : List Token}
      {token : Token}
      {tag : Tag}
      {child : Child}
      {place : Cursor}
      (hMarks : group.SetsMarks draft flags final)
      (hCovers :
        Cursor.Covers before rest (flags ++ [token]) place)
      (hOpens : token.opens tag.text)
      (hChild : group.child? tag = some child)
      (hFree : group.prior? final child = none) :
      Moves group frames draft before rest
        (.enter child.production.id place
          (⟨group.id, tag.text, final⟩ :: frames))

/- What one step of the machine can lead to. -/
inductive Step.Moves : Step → Step → Prop
  /- A leaf is closed. -/
  | leaf
      {leaf : Leaf}
      {cursor place : Cursor}
      {frames : Frames}
      {code : Code}
      {token : Token}
      {fragment : Fragment}
      (hCovers :
        Cursor.Covers cursor.before cursor.rest
          (code ++ [token]) place)
      (hContent : code.IsContent)
      (hCloses : token.closes leaf.closeTag.text)
      (hBuild : leaf.build code token = .ok fragment) :
      Moves (.enter (Production.ofLeaf leaf).id cursor frames)
        (.deliver frames place fragment)
  /- A section reads on. -/
  | group
      {step later : Step}
      {group : Section}
      {frames : Frames}
      {draft : Draft}
      (hHands : step.Hands group frames draft)
      (hMoves :
        group.Moves frames draft step.cursor.before
          step.cursor.rest later) :
      Moves step later

/- A section that goes on is closed or meets a child. -/
theorem Section.moves_of_proceed
    {group : Section}
    {frames : Frames}
    {draft : Draft}
    {before rest : List Token}
    {later : Step}
    (hProceed :
      group.proceed frames draft before rest = .ok later) :
    group.Moves frames draft before rest later := by
  rcases group.proceed_past_marks frames draft before rest with
    ⟨flags, tail, final, rfl, hMarks, hTail, hPast⟩
  rw [hPast] at hProceed
  cases tail with
  | nil => cases hProceed
  | cons token rest =>
      have hCovers :
          Cursor.Covers before (flags ++ token :: rest)
            (flags ++ [token])
            ⟨token :: (flags.reverse ++ before), rest⟩ :=
        ⟨by simp, by simp⟩
      rw [proceed] at hProceed
      cases hRead : group.read token with
      | close =>
          simp only [hRead] at hProceed
          split at hProceed
          · cases hProceed
          · rename_i fragment hClose
            cases hProceed
            exact .close hMarks hCovers
              (read_eq_close_iff.mp hRead) hClose
      | opening tag child =>
          rcases read_eq_opening_iff.mp hRead with
            ⟨hOpens, hChild⟩
          simp only [hRead] at hProceed
          split at hProceed
          · cases hProceed
          · rename_i hFree
            cases hProceed
            exact .child hMarks hCovers hOpens hChild hFree
      | mark tag =>
          simp [hRead, hTail token rfl tag hRead] at hProceed
      | stray =>
          simp only [hRead] at hProceed
          cases hProceed

namespace Step

/- A leaf that goes on is closed. -/
theorem moves_of_leaf
    {leaf : Leaf}
    {cursor : Cursor}
    {frames : Frames}
    {later : Step}
    (hProceed : leaf.proceed frames cursor = .ok later) :
    Moves (.enter (Production.ofLeaf leaf).id cursor frames)
      later := by
  have hRest :=
    List.takeWhile_append_dropWhile
      (p := Token.isContent) (l := cursor.rest)
  unfold Leaf.proceed at hProceed
  cases hTail : cursor.rest.dropWhile Token.isContent with
  | nil => simp [hTail] at hProceed
  | cons token rest =>
      rw [hTail] at hRest
      simp only [hTail] at hProceed
      split at hProceed
      · rename_i hCloses
        split at hProceed
        · cases hProceed
        · rename_i fragment hBuild
          cases hProceed
          refine .leaf ⟨?_, rfl⟩ ?_ hCloses hBuild
          · rw [List.append_assoc]
            exact hRest.symm
          · intro other hOther
            have hKind :=
              List.all_eq_true.mp List.all_takeWhile other
                hOther
            simpa [Token.isContent] using hKind
      · cases hProceed

/- What is handed to a section moves as the section does. -/
theorem Hands.moves_of_next
    {step later : Step}
    {group : Section}
    {frames : Frames}
    {draft : Draft}
    (hHands : step.Hands group frames draft)
    (hNext : step.next = .ok (.more later)) :
    group.Moves frames draft step.cursor.before
      step.cursor.rest later := by
  rw [hHands.next_eq] at hNext
  rcases Progress.exists_more hNext with
    ⟨found, hProceed, hFound⟩
  cases hFound
  exact Section.moves_of_proceed hProceed

/- A step that has a next one leads there by such a move. -/
theorem moves_of_next
    {step later : Step}
    (hNext : step.next = .ok (.more later)) :
    step.Moves later := by
  have hSound : step.Sound := by
    intro fault hFault
    rw [hNext] at hFault
    cases hFault
  rcases hSound.hands_or_leaf with
    ⟨group, frames, draft, hHands⟩ |
      ⟨leaf, cursor, frames, rfl⟩ | ⟨cursor, fragment, rfl⟩
  · exact .group hHands (hHands.moves_of_next hNext)
  · simp only [next, Production.ofId?_id, Production.start]
      at hNext
    rcases Progress.exists_more hNext with
      ⟨found, hProceed, hFound⟩
    cases hFound
    exact moves_of_leaf hProceed
  · cases hNext

/- The end of a run is a delivery to no frame. -/
theorem eq_deliver_of_done
    {step : Step}
    {fragment : Fragment}
    {cursor : Cursor}
    (hDone : step.next = .ok (.done fragment cursor)) :
    step = .deliver [] cursor fragment := by
  unfold next at hDone
  split at hDone
  · split at hDone
    · cases hDone
    · rcases Progress.exists_more hDone with ⟨_, _, ⟨⟩⟩
  · cases hDone
    rfl
  · split at hDone
    · cases hDone
    · rcases Progress.exists_more hDone with ⟨_, _, ⟨⟩⟩

/-
  A move goes on to just behind a tag. What it reads before the
  tag closes nothing.
-/
theorem Moves.exists_covers
    {step later : Step}
    (hMoves : step.Moves later) :
    ∃ taken token,
      Cursor.Covers step.cursor.before step.cursor.rest
          (taken ++ [token]) later.cursor ∧
        ∀ other ∈ taken, other.kind ≠ .closeTag := by
  cases hMoves with
  | leaf hCovers hContent =>
      exact ⟨_, _, hCovers, fun other hOther =>
        (hContent other hOther).1⟩
  | group _ hMoves =>
      cases hMoves with
      | close hMarks hCovers =>
          exact ⟨_, _, hCovers, hMarks.kind_ne_closeTag⟩
      | child hMarks hCovers =>
          exact ⟨_, _, hCovers, hMarks.kind_ne_closeTag⟩

end Step

------------------------------------------------------------
-- Sections That Wait
------------------------------------------------------------

/-
  A section that waits for a child of its table, and would not
  overwrite what it has by taking the child in.
-/
inductive Frame.Waits : Frame → Prop
  | intro
      {group : Section}
      {tag : Tag}
      {child : Child}
      {draft : Draft}
      (hChild : group.child? tag = some child)
      (hFree : group.prior? draft child = none) :
      Waits ⟨group.id, tag.text, draft⟩

namespace Step

/- The frames of a step are around what it is handed to. -/
theorem Hands.mem_frames
    {step : Step}
    {group : Section}
    {frames : Frames}
    {draft : Draft}
    (hHands : step.Hands group frames draft)
    {frame : Frame}
    (hFrame : frame ∈ frames) :
    frame ∈ step.frames := by
  cases hHands with
  | enter => exact hFrame
  | deliver => exact List.mem_cons_of_mem _ hFrame

/- A frame after a move waits for a child or was there. -/
theorem Moves.waits_or_mem
    {step later : Step}
    (hMoves : step.Moves later)
    {frame : Frame}
    (hFrame : frame ∈ later.frames) :
    frame.Waits ∨ frame ∈ step.frames := by
  cases hMoves with
  | leaf => exact .inr hFrame
  | group hHands hMoves =>
      cases hMoves with
      | close => exact .inr (hHands.mem_frames hFrame)
      | child _ _ _ hChild hFree =>
          rcases List.mem_cons.mp hFrame with rfl | hOuter
          · exact .inl (.intro hChild hFree)
          · exact .inr (hHands.mem_frames hOuter)

/- Every frame of a run waits for a child or was there first. -/
theorem waits_or_mem_of_dispatched
    {start step : Step}
    (hStep : step ∈ start.dispatched)
    {frame : Frame}
    (hFrame : frame ∈ step.frames) :
    frame.Waits ∨ frame ∈ start.frames := by
  rcases List.append_of_mem hStep with ⟨earlier, later, hSplit⟩
  refine dispatched_invariant
    (fun _ step => ∀ frame ∈ step.frames,
      frame.Waits ∨ frame ∈ start.frames)
    ?_ [] (fun _ => .inr) hSplit frame hFrame
  intro _ step later hBefore hNext frame hFrame
  rcases (moves_of_next hNext).waits_or_mem hFrame with
    hWaits | hOld
  · exact .inl hWaits
  · exact hBefore frame hOld

end Step

end TraitMarkup
