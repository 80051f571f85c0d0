import TraitMarkup.Proofs.Dispatch

/-
  The steps of a run are well bracketed.

  A production that is entered stays open until it is answered
  by a delivery. At each step the frames are those of the open
  productions, and a delivery answers the innermost one with
  the frames that it was entered with. So the tags of sections
  in a stream that is accepted are properly nested.

  Key definitions include:
    * `Step.unanswered`
    * `Cursor.Behind`
    * `Step.Bracketed`
    * `Step.Resumes`
    * `Token.Brackets`

  Main declarations:
    * `Step.bracketed_of_split`
    * `Step.resumes_of_split`
    * `Step.brackets_of_run`
    * `Step.dispatched_discipline`
-/

namespace TraitMarkup

------------------------------------------------------------
-- Open Productions
------------------------------------------------------------

namespace Step

/- Entering opens a production, a delivery answers the last. -/
def answer
    (opened : List Step) :
    Step → List Step
  | .enter id cursor frames => .enter id cursor frames :: opened
  | .deliver _ _ _ => opened.tail

/- The entered productions without an answer, last one first. -/
def unanswered
    (steps : List Step) :
    List Step :=
  steps.foldl answer []

/- One more step is answered for at the end. -/
theorem unanswered_concat
    (steps : List Step)
    (step : Step) :
    unanswered (steps ++ [step]) =
      answer (unanswered steps) step := by
  rw [unanswered, List.foldl_append]
  rfl

end Step

/- Productions with the same id are the same. -/
theorem Production.eq_of_id_eq
    {left right : Production}
    (hId : left.id = right.id) :
    left = right := by
  have hFound : ofId? left.id = ofId? right.id := by rw [hId]
  rw [ofId?_id, ofId?_id] at hFound
  exact Option.some.inj hFound

/- A frame tells its section, its tag and its draft. -/
theorem Frame.eq_of_mk_eq
    {group other : Section}
    {tag mark : Tag}
    {draft saved : Draft}
    (hFrame :
      Frame.mk group.id tag.text draft =
        ⟨other.id, mark.text, saved⟩) :
    group = other ∧ tag = mark ∧ draft = saved := by
  rw [Frame.mk.injEq] at hFrame
  rcases hFrame with ⟨hId, hText, hDraft⟩
  have hGroup : group = other :=
    Production.ofSection.inj (Production.eq_of_id_eq hId)
  have hTag : tag = mark := by
    have hFound := congrArg Tag.ofText? hText
    rw [Tag.ofText?_text, Tag.ofText?_text] at hFound
    exact Option.some.inj hFound
  exact ⟨hGroup, hTag, hDraft⟩

/-
  The innermost frame waits for the tag that closes the
  production.
-/
def Production.AnswersTo
    (production : Production)
    (frames : Frames) : Prop :=
  ∀ frame ∈ frames.head?,
    frame.resume = production.closeTag.text

/- The frames are those of the open productions. -/
inductive Step.Opened : List Step → Frames → Prop
  | nil :
      Opened [] []
  | cons
      {opened : List Step}
      {frames : Frames}
      {production : Production}
      {frame : Frame}
      (cursor : Cursor)
      (hTarget : frame.target = production.id)
      (hAnswers : production.AnswersTo frames)
      (hOuter : Opened opened frames) :
      Opened (.enter production.id cursor frames :: opened)
        (frame :: frames)

/- The production is the innermost open one. -/
def Production.InProgress
    (production : Production)
    (opened : List Step)
    (frames : Frames) : Prop :=
  ∃ cursor outer,
    opened = .enter production.id cursor frames :: outer ∧
      production.AnswersTo frames ∧
      Step.Opened outer frames

/- The section of the innermost frame is in progress. -/
theorem Step.Opened.inProgress
    {opened : List Step}
    {frame : Frame}
    {frames : Frames}
    (hOpened : Opened opened (frame :: frames))
    {production : Production}
    (hTarget : frame.target = production.id) :
    production.InProgress opened frames := by
  cases hOpened with
  | cons cursor hFound hAnswers hOuter =>
      have hSame :=
        Production.eq_of_id_eq (hFound.symm.trans hTarget)
      subst hSame
      exact ⟨cursor, _, rfl, hAnswers, hOuter⟩

/- What is in progress may wait for any child. -/
theorem Production.InProgress.opened
    {production : Production}
    {opened : List Step}
    {frames : Frames}
    (hProgress : production.InProgress opened frames)
    (resume : String)
    (draft : Draft) :
    Step.Opened opened
      (⟨production.id, resume, draft⟩ :: frames) := by
  rcases hProgress with ⟨cursor, outer, rfl, hAnswers, hOuter⟩
  exact .cons cursor rfl hAnswers hOuter

------------------------------------------------------------
-- Tags Behind A Place
------------------------------------------------------------

namespace Cursor

/- The place is in the stream, and the token is before it. -/
def Behind
    (cursor : Cursor)
    (stream : List Token)
    (token : Token) : Prop :=
  cursor.tokens = stream ∧
    ∃ i, cursor.position = i + 1 ∧ stream[i]? = some token

variable {cursor place : Cursor}
variable {stream taken : List Token}
variable {token : Token}

/- The token that was read last is the one before. -/
theorem Behind.last?_eq
    (hBehind : cursor.Behind stream token) :
    cursor.last? = some token := by
  rcases hBehind with ⟨rfl, i, hPosition, hToken⟩
  rcases cursor with ⟨before, rest⟩
  cases before with
  | nil => cases hPosition
  | cons last before =>
      have hLength : before.length = i :=
        Nat.succ.inj hPosition
      subst hLength
      simpa [tokens, last?] using hToken

/- What is read last stands behind the place. -/
theorem Covers.behind
    (hCovers :
      Covers cursor.before cursor.rest (taken ++ [token])
        place) :
    place.Behind cursor.tokens token := by
  rcases place with ⟨before, rest⟩
  rcases hCovers with ⟨hRest, hBefore⟩
  dsimp only at hRest hBefore
  subst hBefore
  refine ⟨?_, taken.length + cursor.before.length, ?_, ?_⟩
  · simp [tokens, hRest]
  · simp [position]
  · simp [tokens, hRest, List.getElem?_append_right]

end Cursor

------------------------------------------------------------
-- Bracketed Steps
------------------------------------------------------------

/-
  A step that is not the first of a run, after the productions
  that are open. A production is entered for the tag behind it,
  from the table of the section that waits. A delivery is made
  at the closing tag of the innermost open production, to the
  frames that this one was entered with.
-/
inductive Step.Bracketed
    (stream : List Token) :
    List Step → Step → Prop
  | enter
      {opened : List Step}
      {group : Section}
      {tag : Tag}
      {child : Child}
      {draft : Draft}
      {outer : Frames}
      {cursor : Cursor}
      {token : Token}
      (hOpened :
        Opened opened (⟨group.id, tag.text, draft⟩ :: outer))
      (hChild : group.child? tag = some child)
      (hBehind : cursor.Behind stream token)
      (hOpens : token.opens tag.text) :
      Bracketed stream opened
        (.enter child.production.id cursor
          (⟨group.id, tag.text, draft⟩ :: outer))
  | deliver
      {opened : List Step}
      {production : Production}
      {start cursor : Cursor}
      {frames : Frames}
      {fragment : Fragment}
      {token : Token}
      (hOpened : Opened opened frames)
      (hAnswers : production.AnswersTo frames)
      (hBehind : cursor.Behind stream token)
      (hCloses : token.closes production.closeTag.text) :
      Bracketed stream
        (.enter production.id start frames :: opened)
        (.deliver frames cursor fragment)

/- A step is the first of a run, or bracketed. -/
def Step.Placed
    (production : Production)
    (cursor : Cursor)
    (opened : List Step)
    (step : Step) : Prop :=
  (opened = [] ∧ step = .enter production.id cursor []) ∨
    step.Bracketed cursor.tokens opened

namespace Step.Placed

variable {production : Production}
variable {cursor : Cursor}
variable {opened : List Step}
variable {step : Step}

/- The place of a step is in the stream of the run. -/
theorem tokens_eq
    (hPlaced : step.Placed production cursor opened) :
    step.cursor.tokens = cursor.tokens := by
  rcases hPlaced with ⟨_, rfl⟩ | hBracketed
  · rfl
  · cases hBracketed with
    | enter _ _ hBehind => exact hBehind.1
    | deliver _ _ hBehind => exact hBehind.1

/- A production that is entered is in progress. -/
theorem inProgress_enter
    {entered : Production}
    {place : Cursor}
    {frames : Frames}
    (hPlaced :
      (enter entered.id place frames).Placed production cursor
        opened) :
    entered.InProgress
      (answer opened (enter entered.id place frames))
      frames := by
  refine ⟨place, opened, rfl, ?_⟩
  generalize hId : entered.id = id at hPlaced
  rcases hPlaced with ⟨rfl, hStart⟩ | hBracketed
  · cases hStart
    exact ⟨by rintro frame ⟨⟩, .nil⟩
  · cases hBracketed with
    | enter hOpened hChild =>
        have hSame := Production.eq_of_id_eq hId
        subst hSame
        refine ⟨?_, hOpened⟩
        rintro frame ⟨⟩
        rw [Section.closeTag_of_child? hChild]

/- A section that is handed a draft is in progress. -/
theorem inProgress_of_hands
    (hPlaced : step.Placed production cursor opened)
    {group : Section}
    {frames : Frames}
    {draft : Draft}
    (hHands : step.Hands group frames draft) :
    (Production.ofSection group).InProgress
      (answer opened step) frames := by
  cases hHands with
  | enter =>
      rename_i place
      have hEntered :
          (enter (Production.ofSection group).id place
            frames).Placed production cursor opened :=
        hPlaced
      exact inProgress_enter hEntered
  | deliver hChild draft place fragment =>
      rcases hPlaced with ⟨_, hStart⟩ | hBracketed
      · cases hStart
      · cases hBracketed with
        | deliver hOpened => exact hOpened.inProgress rfl

/-
  Every move leads to a bracketed step. The tag behind it is
  the one that the move was made for.
-/
theorem bracketed_of_moves
    (hPlaced : step.Placed production cursor opened)
    {later : Step}
    (hMoves : step.Moves later) :
    later.Bracketed cursor.tokens (answer opened step) := by
  rw [← hPlaced.tokens_eq]
  cases hMoves with
  | leaf hCovers _ hCloses =>
      rcases inProgress_enter hPlaced with
        ⟨start, outer, hAnswer, hAnswers, hOuter⟩
      rw [hAnswer]
      exact .deliver hOuter hAnswers hCovers.behind hCloses
  | group hHands hMoves =>
      have hProgress := hPlaced.inProgress_of_hands hHands
      cases hMoves with
      | close _ hCovers hCloses =>
          rcases hProgress with
            ⟨start, outer, hAnswer, hAnswers, hOuter⟩
          rw [hAnswer]
          exact .deliver hOuter hAnswers hCovers.behind hCloses
      | child _ hCovers hOpens hChild =>
          exact .enter (hProgress.opened _ _) hChild
            hCovers.behind hOpens

end Step.Placed

namespace Step

/- Every step of a run is the first one or bracketed. -/
theorem placed_of_split
    {production : Production}
    {cursor : Cursor}
    {earlier later : List Step}
    {step : Step}
    (hSplit :
      (enter production.id cursor []).dispatched =
        earlier ++ step :: later) :
    step.Placed production cursor (unanswered earlier) := by
  refine dispatched_invariant
    (fun earlier step =>
      step.Placed production cursor (unanswered earlier))
    ?_ [] (.inl ⟨rfl, rfl⟩) hSplit
  intro earlier step later hPlaced hNext
  rw [unanswered_concat]
  exact .inr (hPlaced.bracketed_of_moves (moves_of_next hNext))

/- Every step but the first one of a run is bracketed. -/
theorem bracketed_of_split
    {production : Production}
    {cursor : Cursor}
    {earlier later : List Step}
    {step : Step}
    (hSplit :
      (enter production.id cursor []).dispatched =
        earlier ++ step :: later)
    (hEarlier : earlier ≠ []) :
    step.Bracketed cursor.tokens (unanswered earlier) := by
  rcases List.eq_nil_or_concat earlier with
    rfl | ⟨before, last, rfl⟩
  · contradiction
  · rw [List.concat_eq_append] at hSplit ⊢
    rw [List.append_assoc] at hSplit
    rw [unanswered_concat]
    exact (placed_of_split hSplit).bracketed_of_moves
      (moves_of_next (next_of_split hSplit))

end Step

------------------------------------------------------------
-- What A Section Goes On With
------------------------------------------------------------

/-
  A delivery to a section that waits. The section takes the
  fragment into the field of the child, which is free or takes
  many, and reads on with the draft it gets, where all else is
  as it was saved. The next step is what comes of that.
-/
inductive Step.Resumes :
    Frame → Frames → Cursor → Fragment → List Step → Prop
  | intro
      {group : Section}
      {tag : Tag}
      {child : Child}
      {draft state : Draft}
      {outer : Frames}
      {cursor : Cursor}
      {fragment : Fragment}
      {later : List Step}
      (hChild : group.child? tag = some child)
      (hFree :
        child.repeated = false →
          draft.value? group child.field = none)
      (hTakes :
        draft.Takes group tag child (child.adapt fragment)
          state)
      (hNext :
        (Step.deliver (⟨group.id, tag.text, draft⟩ :: outer)
            cursor fragment).next =
          (group.proceed outer state cursor.before
            cursor.rest).map .more)
      (hLater :
        ∀ next ∈ later.head?,
          group.Moves outer state cursor.before cursor.rest
            next) :
      Resumes ⟨group.id, tag.text, draft⟩ outer cursor fragment
        later

/- Every delivery of a run resumes the section that waits. -/
theorem Step.resumes_of_split
    {production : Production}
    {start cursor : Cursor}
    {earlier later : List Step}
    {frame : Frame}
    {outer : Frames}
    {fragment : Fragment}
    (hSplit :
      (enter production.id start []).dispatched =
        earlier ++
          deliver (frame :: outer) cursor fragment :: later) :
    Resumes frame outer cursor fragment later := by
  have hStep :
      deliver (frame :: outer) cursor fragment ∈
        (enter production.id start []).dispatched := by
    simp [hSplit]
  have hWaits : frame.Waits := by
    rcases waits_or_mem_of_dispatched hStep
        List.mem_cons_self with
      hWaits | hStart
    · exact hWaits
    · cases hStart
  cases hWaits with
  | intro hChild hFree =>
      rename_i draft
      have hHands :=
        Hands.deliver hChild draft outer cursor fragment
      refine .intro hChild ?_
        (Draft.takes_add hChild draft fragment)
        hHands.next_eq ?_
      · intro hSingle
        simpa [Section.prior?, hSingle] using hFree
      · intro next hNext
        cases later with
        | nil => cases hNext
        | cons found later =>
            cases hNext
            exact hHands.moves_of_next (next_of_split hSplit)

------------------------------------------------------------
-- Nested Tags
------------------------------------------------------------

/-
  Tags of sections, read with the names that are open: a tag
  opens a name or closes the innermost one, and at the end none
  is open.
-/
inductive Token.Nests : List String → List Token → Prop
  | nil :
      Nests [] []
  | opening
      {token : Token}
      {name : String}
      {names : List String}
      {tags : List Token}
      (hOpens : token.opens name)
      (hMore : Nests (name :: names) tags) :
      Nests names (token :: tags)
  | closing
      {token : Token}
      {name : String}
      {names : List String}
      {tags : List Token}
      (hCloses : token.closes name)
      (hMore : Nests names tags) :
      Nests (name :: names) (token :: tags)

/-
  The tags are nested, in the order of the stream, and every
  closing tag of the stream is among them.
-/
structure Token.Brackets
    (names : List String)
    (tags stream : List Token) : Prop where
  nests : Nests names tags
  sublist : tags.Sublist stream
  closing :
    tags.filter (·.kind = .closeTag) =
      stream.filter (·.kind = .closeTag)

namespace Token.Brackets

variable {names : List String}
variable {tags stream taken : List Token}
variable {token : Token}

/- A tag more, after tokens that close nothing. -/
theorem cons
    {later : List String}
    (hTaken : ∀ other ∈ taken, other.kind ≠ .closeTag)
    (hNests : Nests names (token :: tags))
    (hMore : Brackets later tags stream) :
    Brackets names (token :: tags)
      ((taken ++ [token]) ++ stream) where
  nests := hNests
  sublist := by
    rw [List.append_assoc]
    exact (hMore.sublist.cons_cons token).trans
      (List.sublist_append_right taken _)
  closing := by
    have hNone :
        taken.filter (·.kind = .closeTag) = [] := by
      simpa [List.filter_eq_nil_iff] using hTaken
    simp [List.filter_append, List.filter_cons, hNone,
      hMore.closing]

end Token.Brackets

namespace Step

/- The tags that the steps stand behind. -/
def tags
    (steps : List Step) :
    List Token :=
  steps.filterMap (·.cursor.last?)

/- The names of the tags that close open productions. -/
def closers
    (opened : List Step) :
    List String :=
  opened.filterMap fun step =>
    step.production?.map (·.closeTag.text)

/- The closing tag of an open production. -/
theorem closers_enter
    (production : Production)
    (cursor : Cursor)
    (frames : Frames)
    (opened : List Step) :
    closers (enter production.id cursor frames :: opened) =
      production.closeTag.text :: closers opened := by
  simp [closers, production?, Production.ofId?_id]

/- The steps behind a tag have the tag in front of theirs. -/
theorem tags_cons
    {step : Step}
    {token : Token}
    (hLast : step.cursor.last? = some token)
    (later : List Step) :
    tags (step :: later) = token :: tags later := by
  simp [tags, hLast]

/- The steps of a run start with its first one. -/
theorem dispatched_eq_cons_tail
    (step : Step) :
    step.dispatched = step :: step.dispatched.tail := by
  rw [dispatched]
  rfl

/- A run that ends with a result ends with a last delivery. -/
theorem eq_deliver_of_run
    {step : Step}
    (hLast : ∀ later, step.next ≠ .ok (.more later))
    {fragment : Fragment}
    {place : Cursor}
    (hRun : step.run = .ok (fragment, place)) :
    step = .deliver [] place fragment := by
  rw [run] at hRun
  split at hRun
  · cases hRun
  · rename_i hDone
    cases hRun
    exact eq_deliver_of_done hDone
  · exact absurd ‹_› (hLast _)

/-
  A bracketed step puts its tag before the tags of the steps
  after it, and answers for the names that are open.
-/
theorem Bracketed.nests
    {stream : List Token}
    {opened : List Step}
    {step : Step}
    (hBracketed : step.Bracketed stream opened)
    {tags : List Token}
    (hTags : Token.Nests (closers (answer opened step)) tags) :
    ∃ token,
      step.cursor.last? = some token ∧
        Token.Nests (closers opened) (token :: tags) := by
  cases hBracketed with
  | enter hOpened hChild hBehind hOpens =>
      refine ⟨_, hBehind.last?_eq, .opening hOpens ?_⟩
      rw [answer, closers_enter,
        Section.closeTag_of_child? hChild] at hTags
      exact hTags
  | deliver hOpened hAnswers hBehind hCloses =>
      refine ⟨_, hBehind.last?_eq, ?_⟩
      rw [closers_enter]
      exact .closing hCloses hTags

/-
  A run that ends with a result answers for every production
  that is open, and the tags its steps stand behind bracket the
  tokens it reads. The induction is on the steps of the run.
-/
theorem brackets_of_run
    {production : Production}
    {cursor : Cursor}
    {opened : List Step}
    {step : Step}
    (hPlaced : step.Placed production cursor opened)
    {fragment : Fragment}
    {place : Cursor}
    (hRun : step.run = .ok (fragment, place)) :
    step.dispatched.foldl answer opened = [] ∧
      ∃ inside,
        Cursor.Covers step.cursor.before step.cursor.rest
            inside place ∧
          Token.Brackets (closers (answer opened step))
            (tags step.dispatched.tail) inside := by
  induction step using run_induction generalizing opened with
  | last step hLast =>
      have hStep := eq_deliver_of_run hLast hRun
      rw [dispatched_of_last hLast]
      subst hStep
      rcases hPlaced with ⟨_, hStart⟩ | hBracketed
      · cases hStart
      · cases hBracketed with
        | deliver hOpened =>
            cases hOpened
            exact ⟨rfl, [], ⟨rfl, rfl⟩, .nil, .slnil, rfl⟩
  | more step later hNext ih =>
      have hMoves := moves_of_next hNext
      have hBracketed := hPlaced.bracketed_of_moves hMoves
      rw [run_of_more hNext] at hRun
      rcases ih (.inr hBracketed) hRun with
        ⟨hAnswered, inside, hInside, hBrackets⟩
      rcases hMoves.exists_covers with
        ⟨taken, token, hCovers, hTaken⟩
      rcases hBracketed.nests hBrackets.nests with
        ⟨last, hLast, hNests⟩
      have hToken : later.cursor.last? = some token := by
        simp [Cursor.last?, hCovers.before]
      rw [hToken] at hLast
      cases hLast
      rw [dispatched_of_more hNext]
      refine ⟨hAnswered, (taken ++ [token]) ++ inside,
        hCovers.trans hInside, ?_⟩
      rw [List.tail_cons, dispatched_eq_cons_tail,
        tags_cons hToken]
      exact hBrackets.cons hTaken hNests

/- The tags of the sections of a trait bracket its stream. -/
theorem brackets_of_ofTokens
    {tokens : List Token}
    {decl : TraitDecl}
    (hTokens : TraitDecl.ofTokens tokens = .ok decl) :
    ∃ opener inside,
      tokens = opener :: inside ∧
        Token.Brackets []
          (tags
            (enter (Production.ofSection .trait).id
              ⟨[opener], inside⟩ []).dispatched)
          tokens := by
  rcases TraitDecl.derivedFrom_of_ofTokens hTokens with
    ⟨opener, inside, rfl, hOpens, hDerives⟩
  have hReads :=
    Production.reads_of_derives hDerives [] [opener] []
  rw [List.append_nil, ← run_enter_nil] at hReads
  rcases brackets_of_run (.inl ⟨rfl, rfl⟩) hReads with
    ⟨_, covered, hCovers, hBrackets⟩
  have hInside : inside = covered := by
    simpa [cursor] using hCovers.rest
  refine ⟨opener, inside, rfl, ?_⟩
  rw [dispatched_eq_cons_tail, tags_cons rfl]
  rw [← hInside, answer, closers_enter] at hBrackets
  have hNone : ∀ other ∈ [], Token.kind other ≠ .closeTag := by
    simp
  exact hBrackets.cons hNone (.opening hOpens hBrackets.nests)

/-
  The stack discipline of a run that starts without frames.
  Each later step is bracketed: it is behind the tag it was
  taken for, and a delivery answers the last production that
  was entered and is open, with the frames of its entering. A
  section that is resumed goes on with what it saved and the
  child it waited for. A run with a result answers for all that
  it entered, so that the tags of sections are nested.
-/
theorem dispatched_discipline :
    (∀ (production : Production)
        (cursor : Cursor),
      let start := enter production.id cursor []
      (∀ earlier step later,
        start.dispatched = earlier ++ step :: later →
          earlier ≠ [] →
            step.Bracketed cursor.tokens
              (unanswered earlier)) ∧
      (∀ earlier frame outer place fragment later,
        start.dispatched =
            earlier ++
              deliver (frame :: outer) place fragment ::
                later →
          Resumes frame outer place fragment later) ∧
      (∀ fragment place,
        start.run = .ok (fragment, place) →
          unanswered start.dispatched = [] ∧
            ∃ inside,
              Cursor.Covers cursor.before cursor.rest inside
                  place ∧
                Token.Brackets [production.closeTag.text]
                  (tags start.dispatched.tail) inside)) ∧
    (∀ tokens decl,
      TraitDecl.ofTokens tokens = .ok decl →
        ∃ opener inside,
          tokens = opener :: inside ∧
            Token.Brackets []
              (tags
                (enter (Production.ofSection .trait).id
                  ⟨[opener], inside⟩ []).dispatched)
              tokens) := by
  refine ⟨?_, fun tokens decl => brackets_of_ofTokens⟩
  intro production cursor start
  refine ⟨?_, ?_, ?_⟩
  · intro earlier step later hSplit hEarlier
    exact bracketed_of_split hSplit hEarlier
  · intro earlier frame outer place fragment later hSplit
    exact resumes_of_split hSplit
  · intro fragment place hRun
    rcases brackets_of_run (.inl ⟨rfl, rfl⟩) hRun with
      ⟨hAnswered, inside, hCovers, hBrackets⟩
    rw [answer, closers_enter] at hBrackets
    exact ⟨hAnswered, inside, hCovers, hBrackets⟩

/-
  A trait with a name: the name is delivered to the trait while
  both are open, and the four tags of the stream are nested.
-/
theorem dispatched_discipline_visit :
    let word : Token := ⟨.ident, "Visit", false, {}⟩
    let traitTag : Token := .ofOpenTag "trait"
    let nameTag : Token := .ofOpenTag "name"
    let nameEnd : Token := .ofCloseTag "name"
    let traitEnd : Token := .ofCloseTag "trait"
    let stream := [traitTag, nameTag, word, nameEnd, traitEnd]
    let frame : Frame := ⟨"trait", "name", .empty⟩
    let start :=
      enter "trait"
        ⟨[traitTag], [nameTag, word, nameEnd, traitEnd]⟩ []
    let name :=
      enter "name"
        ⟨[nameTag, traitTag], [word, nameEnd, traitEnd]⟩ [frame]
    let behind : Cursor :=
      ⟨[nameEnd, word, nameTag, traitTag], [traitEnd]⟩
    let last :=
      deliver [] ⟨stream.reverse, []⟩ (.trait { name := word })
    (deliver [frame] behind (.token word)).Bracketed stream
        [name, start] ∧
      Resumes frame [] behind (.token word) [last] ∧
      unanswered start.dispatched = [] ∧
      Token.Brackets []
        [traitTag, nameTag, nameEnd, traitEnd] stream := by
  intro word traitTag nameTag nameEnd traitEnd stream frame
    start name behind last
  have hStart : start.next = .ok (.more name) := by decide
  have hName :
      name.next =
        .ok (.more
          (deliver [frame] behind (.token word))) := by
    decide
  have hDeliver :
      (deliver [frame] behind (.token word)).next =
        .ok (.more last) := by
    decide
  have hLast : last.dispatched = [last] :=
    dispatched_of_last (by intro later; exact nofun)
  have hSteps :
      start.dispatched =
        [start, name, deliver [frame] behind (.token word),
          last] := by
    rw [dispatched_of_more hStart, dispatched_of_more hName,
      dispatched_of_more hDeliver, hLast]
  have hRun :
      start.run =
        .ok (.trait { name := word },
          ⟨stream.reverse, []⟩) := by
    rw [run_of_more hStart, run_of_more hName,
      run_of_more hDeliver, run]
    rfl
  have hTokens :
      TraitDecl.ofTokens stream =
        .ok { name := word } := by
    have hOpens : traitTag.opens "trait" := by decide
    rw [TraitDecl.ofTokens_cons hOpens, ← run_enter_nil]
    exact congrArg (Except.bind · TraitDecl.ofResult) hRun
  rcases dispatched_discipline with ⟨hSections, hAccepted⟩
  rcases hSections (.ofSection .trait) start.cursor with
    ⟨hBracketed, hResumes, hEnds⟩
  rcases hAccepted stream _ hTokens with
    ⟨opener, inside, hStream, hBrackets⟩
  rcases List.cons.inj hStream with ⟨rfl, rfl⟩
  refine
    ⟨hBracketed [start, name] _ [last] hSteps (by simp),
      hResumes [start, name] frame [] behind _ [last] hSteps,
      (hEnds _ _ hRun).1, ?_⟩
  have hTags :
      tags start.dispatched =
        [traitTag, nameTag, nameEnd, traitEnd] := by
    rw [hSteps]
    rfl
  rw [← hTags]
  exact hBrackets

end Step

end TraitMarkup
