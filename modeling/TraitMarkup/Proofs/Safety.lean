import TraitMarkup.Proofs.Bracketing
import TraitMarkup.Proofs.Refusal
import TraitMarkup.Proofs.TreePrinting

/-
  Nothing goes wrong but what the text is to blame for.

  A frame names its section and the tag it waits for by texts,
  and a fragment carries no promise of its shape. So a step may
  make no sense at all. The steps of a run do make sense: every
  frame waits for a fragment that fits the field it goes to,
  and every fragment that is handed over is of that shape. This
  holds at the start and each step keeps it.

  The code of a leaf is looked at by place. No place is asked
  for that the code does not have.

  Key definitions include:
    * `Leaf.Stop`
    * `Leaf.buildAt`
    * `Fault.IsRejection`
    * `Section.Collects`
    * `Frames.Expect`
    * `Step.IsTyped`

  Main declarations:
    * `Leaf.buildAt_eq`
    * `Step.IsTyped.next`
    * `Step.IsTyped.isRejection`
    * `Step.IsTyped.run`
    * `TraitDecl.ofText_safe`
    * `Production.run_safe`
-/

namespace TraitMarkup

------------------------------------------------------------
-- Code By Place
------------------------------------------------------------

/- Why a leaf that looks at its code by place gives nothing. -/
inductive Leaf.Stop where
  /- The code has no token at the place. -/
  | outOfRange (place : Nat)
  /- The code has the wrong shape. -/
  | malformed (complaint : Malformed)
deriving DecidableEq, Repr

/- The token of the code at a place, counted from zero. -/
def Code.look
    (code : Code)
    (place : Nat) :
    Except Leaf.Stop Token :=
  match code[place]? with
  | none => .error (.outOfRange place)
  | some token => .ok token

namespace Leaf

/- A single token: the first, if there is no second. -/
def buildSingleAt
    (kind : Kind)
    (code : Code) :
    Except Stop Fragment := do
  let first ← code.look 0
  if first.kind ≠ kind then
    .error (.malformed (.wrongKind first))
  else if 1 < code.length then
    let second ← code.look 1
    .error (.malformed (.surplus second))
  else
    return .token first

/-
  The restriction of a visibility: what stands between the
  second token and the last one.
-/
def buildRestrictionAt
    (code : Code) :
    Except Stop Fragment := do
  let inner : Code := (code.drop 2).dropLast
  if inner.length = 0 then
    let last ← code.look (code.length - 1)
    .error (.malformed (.restriction last))
  else
    let word ← inner.look 0
    if inner.length = 1 ∧ word.text ∈ restrictedWords then
      return .code code
    else if 2 ≤ inner.length ∧ word.text = "in" then
      return .code code
    else
      .error (.malformed (.restriction word))

/- A visibility. -/
def buildVisibilityAt
    (code : Code) :
    Except Stop Fragment := do
  let first ← code.look 0
  if first.kind ≠ .ident ∨ first.text ≠ "pub" then
    .error (.malformed (.notPub first))
  else if code.length = 1 then
    return .code code
  else
    let second ← code.look 1
    let last ← code.look (code.length - 1)
    if second.text ≠ "(" ∨ last.text ≠ ")" then
      .error (.malformed (.afterPub second))
    else
      buildRestrictionAt code

/- The path of a bound. -/
def buildPathAt
    (code : Code) :
    Except Stop Fragment := do
  let first ← code.look 0
  if first.kind = .punct ∧ first.text = "?" then
    if code.length = 1 then
      .error (.malformed (.onlyRelaxed first))
    else
      return .bound
        (.trait { path := code.drop 1, relaxed := true })
  else
    return .bound (.trait { path := code })

/-
  The fragment of a leaf that looks at its code by place. Only
  a leaf that may be empty goes on without any code.
-/
def buildAt
    (leaf : Leaf)
    (code : Code)
    (close : Token) :
    Except Stop Fragment :=
  if code.length = 0 ∧ leaf.form ≠ .anything then
    .error (.malformed (.empty close))
  else
    match leaf.form with
    | .single kind _ => buildSingleAt kind code
    | .visibility => buildVisibilityAt code
    | .path => buildPathAt code
    | .verbatim _ => .ok (.code code)
    | .anything => .ok (.code code)

section WithinTheCode

attribute [local simp] ok_bind pure_eq_ok mapError_ok
  mapError_error Except.map Code.look

/- A single token is looked at within the code. -/
theorem buildSingleAt_cons
    (kind : Kind)
    (first : Token)
    (rest : Code) :
    buildSingleAt kind (first :: rest) =
      (buildSingle kind first rest).mapError .malformed := by
  by_cases hKind : first.kind = kind
  · cases rest <;> simp [buildSingleAt, buildSingle, hKind]
  · simp [buildSingleAt, buildSingle, hKind]

/- A path is looked at within the code. -/
theorem buildPathAt_cons
    (first : Token)
    (rest : Code) :
    buildPathAt (first :: rest) =
      (buildPath first rest).mapError .malformed := by
  by_cases hMark : first.kind = .punct ∧ first.text = "?"
  · cases rest <;> simp [buildPathAt, buildPath, hMark]
  · simp [buildPathAt, buildPath, hMark]

/- A restriction is looked at within the code. -/
theorem buildRestrictionAt_concat
    (first second last : Token)
    (inner : Code) :
    buildRestrictionAt (first :: second :: (inner ++ [last])) =
      ((checkRestriction last inner).map fun _ =>
        Fragment.code
          (first :: second :: (inner ++ [last]))).mapError
        .malformed := by
  unfold buildRestrictionAt
  rcases inner with _ | ⟨word, _ | ⟨next, more⟩⟩
  · simp [checkRestriction]
  · by_cases hWord : word.text ∈ restrictedWords <;>
      simp [checkRestriction, hWord]
  · by_cases hWord : word.text = "in" <;>
      simp [checkRestriction, hWord]

/- A visibility is looked at within the code. -/
theorem buildVisibilityAt_cons
    (first : Token)
    (rest : Code) :
    buildVisibilityAt (first :: rest) =
      (buildVisibility first rest).mapError .malformed := by
  unfold buildVisibilityAt buildVisibility
  by_cases hPub : first.kind = .ident ∧ first.text = "pub"
  · rcases rest with _ | ⟨second, more⟩
    · simp [hPub, checkAfterPub]
    · rcases List.eq_nil_or_concat more with
        rfl | ⟨inner, last, rfl⟩
      · -- One token cannot be both brackets.
        by_cases hText : second.text = "(" <;>
          simp [hPub, checkAfterPub, hText]
      · rw [List.concat_eq_append]
        by_cases hText : second.text = "(" ∧ last.text = ")"
        · simp [hPub, checkAfterPub, hText,
            buildRestrictionAt_concat]
        · simp [hPub, checkAfterPub, hText]
  · simp [hPub]

/- A leaf that looks at its code by place is the leaf itself. -/
theorem buildAt_eq
    (leaf : Leaf)
    (code : Code)
    (close : Token) :
    leaf.buildAt code close =
      (leaf.build code close).mapError .malformed := by
  unfold buildAt build
  cases hForm : leaf.form <;> cases code <;>
    simp [buildSingleAt_cons, buildPathAt_cons,
      buildVisibilityAt_cons]

end WithinTheCode

end Leaf

------------------------------------------------------------
-- Rejections
------------------------------------------------------------

/- The tokens are at fault, in one of the particular ways. -/
def Fault.IsRejection
    (fault : Fault) : Prop :=
  ∃ failure,
    fault = .rejected failure ∧ failure.kind ≠ .general

/- A cause that a production meets leads to a rejection. -/
theorem Fault.isRejection_failure
    (production : Production)
    (callers : List String)
    (cause : Cause) :
    (Fault.rejected
      (production.failure callers cause)).IsRejection := by
  refine ⟨_, rfl, ?_⟩
  cases cause <;> simp [Production.failure, Cause.kind]

/- A leaf that does not go on rejects its tokens. -/
theorem Leaf.isRejection_of_proceed
    {leaf : Leaf}
    {frames : Frames}
    {cursor : Cursor}
    {fault : Fault}
    (hProceed : leaf.proceed frames cursor = .error fault) :
    fault.IsRejection := by
  simp only [Leaf.proceed] at hProceed
  split at hProceed
  · cases hProceed
    exact Fault.isRejection_failure _ _ _
  · split at hProceed
    · split at hProceed
      · cases hProceed
        exact Fault.isRejection_failure _ _ _
      · cases hProceed
    · cases hProceed
      exact Fault.isRejection_failure _ _ _

------------------------------------------------------------
-- What Sections Collect
------------------------------------------------------------

namespace Section

/-
  The section may have collected the draft: its children are of
  the shapes that it asks for, and it has no more of them than
  it takes.
-/
structure Collects
    (group : Section)
    (draft : Draft) : Prop where
  isTyped : group.IsTyped draft
  setsOnce : group.SetsOnce draft

namespace Collects

/- A section that was just opened has collected nothing. -/
theorem empty
    (group : Section) :
    group.Collects .empty where
  isTyped := by
    intro tag fragment hEntry
    cases hEntry
  setsOnce := by
    constructor
    · intro tag child _ _
      exact Nat.zero_le 1
    · intro tag
      exact Nat.zero_le 1

/- A child that fits may be collected. -/
theorem add_child
    {group : Section}
    {draft : Draft}
    (hDraft : group.Collects draft)
    {tag : Tag}
    {child : Child}
    {fragment : Fragment}
    (hChild : group.child? tag = some child)
    (hFree : group.prior? draft child = none)
    (hYields : child.production.yields fragment) :
    group.Collects (draft.add (.child tag fragment)) where
  isTyped := by
    intro other found hEntry
    rcases List.mem_append.mp hEntry with hOld | hNew
    · exact hDraft.isTyped other found hOld
    · cases List.mem_singleton.mp hNew
      exact ⟨child, hChild, hYields⟩
  setsOnce :=
    hDraft.setsOnce.add_child hDraft.isTyped hChild hFree
      fragment

/- A mark that is not set may be collected. -/
theorem add_mark
    {group : Section}
    {draft : Draft}
    (hDraft : group.Collects draft)
    {tag : Tag}
    (hFree : draft.marked tag = false) :
    group.Collects (draft.add (.mark tag)) where
  isTyped := by
    intro other found hEntry
    rcases List.mem_append.mp hEntry with hOld | hNew
    · exact hDraft.isTyped other found hOld
    · cases List.mem_singleton.mp hNew
  setsOnce := hDraft.setsOnce.add_mark hFree

/- Marks that are set one after the other are collected. -/
theorem of_marks
    {group : Section}
    {draft final : Draft}
    {flags : List Token}
    (hDraft : group.Collects draft)
    (hMarks : group.SetsMarks draft flags final) :
    group.Collects final := by
  induction hMarks with
  | nil => exact hDraft
  | cons _ hFree _ ih => exact ih (hDraft.add_mark hFree)

/- What the section is closed with has its shape. -/
theorem yields_of_close
    {group : Section}
    {draft : Draft}
    (hDraft : group.Collects draft)
    {callers : List String}
    {token : Token}
    {fragment : Fragment}
    (hClose : group.close callers draft token = .ok fragment) :
    group.yields fragment :=
  yields_of_forms
    ((close_eq_ok_iff hDraft.isTyped hDraft.setsOnce).mp hClose)

/- A section that does not go on rejects its tokens. -/
theorem isRejection_of_proceed
    {group : Section}
    {draft : Draft}
    (hDraft : group.Collects draft)
    {frames : Frames}
    {before rest : List Token}
    {fault : Fault}
    (hProceed :
      group.proceed frames draft before rest = .error fault) :
    fault.IsRejection := by
  rcases group.proceed_past_marks frames draft before rest with
    ⟨flags, tail, final, rfl, hMarks, hTail, hPast⟩
  have hFinal := hDraft.of_marks hMarks
  rw [hPast] at hProceed
  cases tail with
  | nil =>
      cases hProceed
      exact Fault.isRejection_failure _ _ _
  | cons token rest =>
      rw [proceed] at hProceed
      cases hRead : group.read token with
      | close =>
          simp only [hRead] at hProceed
          split at hProceed
          · rename_i hClose
            cases hProceed
            rcases close_eq_error hFinal.isTyped hFinal.setsOnce
              hClose with ⟨_, subject, _, rfl⟩
            exact Fault.isRejection_failure _ _ _
          · cases hProceed
      | opening tag child =>
          simp only [hRead] at hProceed
          split at hProceed
          · cases hProceed
            exact Fault.isRejection_failure _ _ _
          · cases hProceed
      | mark tag =>
          simp only [hRead, hTail token rfl tag hRead, if_true]
            at hProceed
          cases hProceed
          exact Fault.isRejection_failure _ _ _
      | stray =>
          simp only [hRead] at hProceed
          cases hProceed
          exact Fault.isRejection_failure _ _ _

end Collects

end Section

------------------------------------------------------------
-- Frames That Expect A Production
------------------------------------------------------------

/-
  The frames wait for a fragment of a production, and in the
  end there will be one of the goal. The innermost section has
  a child of that production and room for it; the sections
  around wait for the innermost one.
-/
inductive Frames.Expect
    (goal : Production) :
    Production → Frames → Prop
  | nil :
      Expect goal goal []
  | cons
      {group : Section}
      {tag : Tag}
      {child : Child}
      {draft : Draft}
      {outer : Frames}
      (hChild : group.child? tag = some child)
      (hFree : group.prior? draft child = none)
      (hDraft : group.Collects draft)
      (hOuter : Expect goal (.ofSection group) outer) :
      Expect goal child.production
        (⟨group.id, tag.text, draft⟩ :: outer)

/-
  A step that makes sense on the way to a goal: the production
  that is entered, or that gave the fragment, is the one that
  the frames wait for.
-/
def Step.IsTyped
    (goal : Production) :
    Step → Prop
  | enter id _ frames =>
      ∃ production,
        id = production.id ∧
          Frames.Expect goal production frames
  | deliver frames _ fragment =>
      ∃ production,
        production.yields fragment ∧
          Frames.Expect goal production frames

/- What the innermost frame waits for, and where. -/
theorem Frames.Expect.of_cons
    {goal production : Production}
    {group : Section}
    {tag : Tag}
    {child : Child}
    {draft : Draft}
    {outer : Frames}
    (hExpect :
      Expect goal production
        (⟨group.id, tag.text, draft⟩ :: outer))
    (hChild : group.child? tag = some child) :
    production = child.production ∧
      group.prior? draft child = none ∧
      group.Collects draft ∧
      Expect goal (.ofSection group) outer := by
  generalize hFrames :
    (⟨group.id, tag.text, draft⟩ :: outer : Frames) = frames
    at hExpect
  cases hExpect with
  | nil => cases hFrames
  | cons hFound hFree hDraft hOuter =>
      rename_i other mark kind saved frames
      rcases List.cons.inj hFrames with ⟨hFrame, rfl⟩
      rcases Frame.eq_of_mk_eq hFrame with ⟨rfl, rfl, rfl⟩
      have hKind : child = kind :=
        Option.some.inj (hChild.symm.trans hFound)
      subst hKind
      exact ⟨rfl, hFree, hDraft, hOuter⟩

namespace Step

namespace IsTyped

/- The start of a run makes sense. -/
theorem start
    (goal : Production)
    (cursor : Cursor) :
    (enter goal.id cursor []).IsTyped goal :=
  ⟨goal, rfl, .nil⟩

/- A section is handed what it may have collected. -/
theorem of_hands
    {goal : Production}
    {step : Step}
    {group : Section}
    {frames : Frames}
    {draft : Draft}
    (hStep : step.IsTyped goal)
    (hHands : step.Hands group frames draft) :
    group.Collects draft ∧
      Frames.Expect goal (.ofSection group) frames := by
  cases hHands with
  | enter group cursor frames =>
      rcases hStep with ⟨production, hId, hExpect⟩
      have hSame : production = .ofSection group :=
        Production.eq_of_id_eq hId.symm
      rw [hSame] at hExpect
      exact ⟨.empty group, hExpect⟩
  | deliver hChild draft frames cursor fragment =>
      rcases hStep with ⟨production, hYields, hExpect⟩
      rcases hExpect.of_cons hChild with
        ⟨rfl, hFree, hDraft, hOuter⟩
      exact ⟨hDraft.add_child hChild hFree hYields, hOuter⟩

/-
  A step that makes sense is handed to a section, enters a
  leaf, or is the last one.
-/
theorem hands_or_leaf
    {goal : Production}
    {step : Step}
    (hStep : step.IsTyped goal) :
    (∃ group frames draft, step.Hands group frames draft) ∨
      (∃ leaf cursor frames,
        step = .enter (Production.ofLeaf leaf).id cursor
          frames) ∨
      ∃ cursor fragment,
        step = .deliver [] cursor fragment := by
  cases step with
  | enter id cursor frames =>
      rcases hStep with ⟨production, rfl, _⟩
      cases production with
      | ofLeaf leaf =>
          exact .inr (.inl ⟨leaf, cursor, frames, rfl⟩)
      | ofSection group =>
          exact .inl ⟨group, frames, .empty,
            .enter group cursor frames⟩
  | deliver frames cursor fragment =>
      rcases hStep with ⟨production, _, hExpect⟩
      cases hExpect with
      | nil => exact .inr (.inr ⟨cursor, fragment, rfl⟩)
      | cons hChild _ _ _ =>
          exact .inl ⟨_, _, _, .deliver hChild _ _ _ _⟩

/- What follows on a step that makes sense makes sense too. -/
theorem next
    {goal : Production}
    {step later : Step}
    (hStep : step.IsTyped goal)
    (hNext : step.next = .ok (.more later)) :
    later.IsTyped goal := by
  cases moves_of_next hNext with
  | leaf _ _ _ hBuild =>
      rcases hStep with ⟨production, hId, hExpect⟩
      have hYields :=
        Leaf.yields_of_holds (Leaf.build_eq_ok_iff.mp hBuild)
      rw [← Production.eq_of_id_eq hId] at hExpect
      exact ⟨.ofLeaf _, hYields, hExpect⟩
  | group hHands hMoves =>
      rcases hStep.of_hands hHands with ⟨hDraft, hExpect⟩
      cases hMoves with
      | close hMarks _ _ hClose =>
          have hFinal := hDraft.of_marks hMarks
          exact ⟨.ofSection _, hFinal.yields_of_close hClose,
            hExpect⟩
      | child hMarks _ _ hChild hFree =>
          have hFinal := hDraft.of_marks hMarks
          exact ⟨_, rfl, .cons hChild hFree hFinal hExpect⟩

/- A step that makes sense only fails by a rejection. -/
theorem isRejection
    {goal : Production}
    {step : Step}
    {fault : Fault}
    (hStep : step.IsTyped goal)
    (hFault : step.next = .error fault) :
    fault.IsRejection := by
  rcases hStep.hands_or_leaf with
    ⟨group, frames, draft, hHands⟩ |
      ⟨leaf, cursor, frames, rfl⟩ | ⟨cursor, fragment, rfl⟩
  · rw [hHands.next_eq] at hFault
    exact (hStep.of_hands hHands).1.isRejection_of_proceed
      (Progress.eq_error_of_map hFault)
  · simp only [Step.next, Production.ofId?_id,
      Production.start] at hFault
    exact Leaf.isRejection_of_proceed
      (Progress.eq_error_of_map hFault)
  · cases hFault

/- A run that ends well gives what it was started for. -/
theorem yields_of_done
    {goal : Production}
    {step : Step}
    {fragment : Fragment}
    {cursor : Cursor}
    (hStep : step.IsTyped goal)
    (hDone : step.next = .ok (.done fragment cursor)) :
    goal.yields fragment := by
  rw [eq_deliver_of_done hDone] at hStep
  rcases hStep with ⟨production, hYields, hExpect⟩
  cases hExpect with
  | nil => exact hYields

/-
  A run from a step that makes sense gives a fragment of the
  goal or rejects the tokens. The induction is on the steps.
-/
theorem run
    {goal : Production}
    {step : Step}
    (hStep : step.IsTyped goal) :
    (∃ fragment cursor,
      step.run = .ok (fragment, cursor) ∧
        goal.yields fragment) ∨
      ∃ fault, step.run = .error fault ∧ fault.IsRejection := by
  induction step using run_induction with
  | last step hLast =>
      cases hNext : step.next with
      | error fault =>
          refine .inr ⟨fault, ?_, hStep.isRejection hNext⟩
          rw [Step.run]
          split <;> simp_all
      | ok progress =>
          cases progress with
          | done fragment cursor =>
              refine .inl ⟨fragment, cursor, ?_,
                hStep.yields_of_done hNext⟩
              rw [Step.run]
              split <;> simp_all
          | more later => exact absurd hNext (hLast later)
  | more step later hNext ih =>
      rw [run_of_more hNext]
      exact ih (hStep.next hNext)

/- Every step of a run that makes sense makes sense. -/
theorem of_mem_dispatched
    {goal : Production}
    {start step : Step}
    (hStart : start.IsTyped goal)
    (hStep : step ∈ start.dispatched) :
    step.IsTyped goal := by
  rcases List.append_of_mem hStep with ⟨earlier, later, hSplit⟩
  exact dispatched_invariant
    (fun _ step => step.IsTyped goal)
    (fun _ _ _ hStep hNext => hStep.next hNext) [] hStart
    hSplit

end IsTyped

end Step

/- Only results of a known shape are yielded. -/
theorem Production.isTight_of_yields
    {production : Production}
    {fragment : Fragment}
    (hYields : production.yields fragment) :
    fragment.isTight := by
  cases fragment with
  | loose tree =>
      cases production with
      | ofLeaf leaf => cases leaf <;> cases hYields
      | ofSection group => cases group <;> cases hYields
  | _ => rfl

------------------------------------------------------------
-- Traits
------------------------------------------------------------

namespace TraitDecl

/- What stands outside the trait section is rejected. -/
theorem isRejection_outside
    (message : String)
    (token : Option Token) :
    (outside message token).IsRejection :=
  ⟨_, rfl, by simp⟩

/- Tokens declare a trait or are rejected. -/
theorem ofTokens_safe
    (tokens : List Token) :
    (∃ decl, ofTokens tokens = .ok decl) ∨
      ∃ fault,
        ofTokens tokens = .error fault ∧ fault.IsRejection := by
  cases tokens with
  | nil => exact .inr ⟨_, rfl, isRejection_outside _ _⟩
  | cons token rest =>
      by_cases hOpens :
          token.opens Section.trait.closeTag.text = true
      · have hStart :
            (Step.enter Section.trait.id ⟨[token], rest⟩
              []).IsTyped (.ofSection .trait) :=
          .start (.ofSection .trait) ⟨[token], rest⟩
        simp only [ofTokens, hOpens, if_true]
        rcases hStart.run with
          ⟨fragment, cursor, hRun, hYields⟩ |
            ⟨fault, hRun, hRejection⟩
        · simp only [hRun]
          rcases cursor with ⟨before, _ | ⟨stray, more⟩⟩
          · cases fragment with
            | trait decl => exact .inl ⟨decl, rfl⟩
            | _ => cases hYields
          · exact .inr ⟨_, rfl, isRejection_outside _ _⟩
        · simp only [hRun]
          exact .inr ⟨fault, rfl, hRejection⟩
      · simp only [ofTokens, if_neg hOpens]
        exact .inr ⟨_, rfl, isRejection_outside _ _⟩

/- A text declares a trait or is rejected. -/
theorem ofText_safe
    (file : Option String)
    (text : String) :
    (∃ decl, ofText file text = .ok decl) ∨
      ∃ fault,
        ofText file text = .error fault ∧
          fault.IsRejection := by
  unfold ofText readTokens
  cases Token.ofText file text with
  | error stray =>
      exact .inr ⟨_, rfl, stray.failure file, rfl, by
        simp [StrayCharacter.failure]⟩
  | ok tokens => exact ofTokens_safe tokens

end TraitDecl

------------------------------------------------------------
-- Safety
------------------------------------------------------------

namespace Production

/- A production gives a fragment of its shape or rejects. -/
theorem run_yields_or_rejects
    (production : Production)
    (tokens : List Token) :
    (∃ fragment rest,
      run production.id tokens = .ok (fragment, rest) ∧
        production.yields fragment) ∨
      ∃ fault,
        run production.id tokens = .error fault ∧
          fault.IsRejection := by
  have hStart :=
    Step.IsTyped.start production (.ofTokens tokens)
  unfold run
  rcases hStart.run with
    ⟨fragment, cursor, hRun, hYields⟩ |
      ⟨fault, hRun, hRejection⟩
  · rw [hRun]
    exact .inl ⟨fragment, cursor.rest, rfl, hYields⟩
  · rw [hRun]
    exact .inr ⟨fault, rfl, hRejection⟩

/-
  A run has no fault but a rejection of its tokens, and a tree
  of a declaration has no misprint.

  At every step of a run the frames wait for what they will be
  given. Every child of a section goes to a production that
  exists and to a field that the section has, and what the
  production gives fits the field. A leaf looks at no place
  that its code does not have. A fragment is refused as a bound,
  a parameter or a clause by its tree exactly when it is none,
  and nothing is refused in the tree of a declaration. So every
  text has a Rust text or is rejected.
-/
theorem run_safe :
    (∀ (production : Production) (tokens : List Token),
      (∀ step ∈
          (Step.enter production.id (.ofTokens tokens)
            []).dispatched,
        step.IsTyped production) ∧
      ((∃ fragment rest,
          run production.id tokens = .ok (fragment, rest) ∧
            production.yields fragment) ∨
        ∃ fault,
          run production.id tokens = .error fault ∧
            fault.IsRejection)) ∧
    (∀ (group : Section) (tag : Tag) (child : Child),
      group.child? tag = some child →
        ofId? child.production.id = some child.production ∧
        group.fields.lookup child.field =
          some (if child.repeated then .repeated else .once) ∧
        ∀ fragment,
          child.production.yields fragment →
            child.field.fits group (child.adapt fragment)) ∧
    (∀ (leaf : Leaf) (code : Code) (close : Token),
      leaf.buildAt code close =
        (leaf.build code close).mapError .malformed) ∧
    (∀ (production : Production) (fragment : Fragment),
      production.yields fragment →
        fragment.toTree.boundText =
          fragment.boundToRust.mapError .unsupported ∧
        fragment.toTree.paramText =
          fragment.paramToRust.mapError .unsupported ∧
        fragment.toTree.clauseText =
          fragment.clauseToRust.mapError .unsupported) ∧
    (∀ (decl : TraitDecl) (layout : Layout),
      decl.toTree.print layout = .ok (decl.render layout)) ∧
    ∀ (file : Option String) (text : String) (layout : Layout),
      (∃ decl,
        TraitDecl.ofText file text = .ok decl ∧
          decl.toTree.print layout =
            .ok (decl.render layout)) ∨
      ∃ fault,
        TraitDecl.ofText file text = .error fault ∧
          fault.IsRejection := by
  refine ⟨?_, ?_, ?_, ?_, ?_, ?_⟩
  · intro production tokens
    constructor
    · intro step hStep
      have hStart :=
        Step.IsTyped.start production (.ofTokens tokens)
      exact hStart.of_mem_dispatched hStep
    · exact run_yields_or_rejects production tokens
  · intro group tag child hChild
    exact ⟨ofId?_id child.production,
      Section.lookup_fields hChild,
      fun fragment hYields =>
        Section.fits_of_child? hChild hYields⟩
  · intro leaf code close
    exact leaf.buildAt_eq code close
  · intro production fragment hYields
    have hTight := isTight_of_yields hYields
    exact ⟨Fragment.boundText_toTree hTight,
      Fragment.paramText_toTree hTight,
      Fragment.clauseText_toTree hTight⟩
  · intro decl layout
    exact decl.print_toTree layout
  · intro file text layout
    rcases TraitDecl.ofText_safe file text with
      ⟨decl, hDecl⟩ | hFault
    · exact .inl ⟨decl, hDecl, decl.print_toTree layout⟩
    · exact .inr hFault

/-
  The step of a constant parameter at which it is handed its
  name, and the parameter that comes of it.
-/
theorem run_safe_const :
    let name : Token := ⟨.ident, "N", false, {}⟩
    let type : Token := ⟨.ident, "usize", true, {}⟩
    let rest : List Token :=
      [.ofOpenTag "type", type, .ofCloseTag "type",
        .ofCloseTag "const"]
    let tokens : List Token :=
      [.ofOpenTag "name", name, .ofCloseTag "name"] ++ rest
    let step : Step :=
      .deliver [⟨"const", "name", .empty⟩]
        ⟨[.ofCloseTag "name", name, .ofOpenTag "name"], rest⟩
        (.token name)
    let param : Fragment := .param (.const name [type])
    step ∈
        (Step.enter "const" (.ofTokens tokens) []).dispatched ∧
      step.IsTyped (.ofSection .constParam) ∧
      Field.name.fits .constParam (.token name) ∧
      param.toTree.boundText =
        .error (.unsupported ⟨"bound", "ConstParam"⟩) ∧
      param.toTree.paramText = .ok "const N: usize" := by
  intro name type rest tokens step param
  have hStep :
      step ∈
        (Step.enter (ofSection .constParam).id
          (.ofTokens tokens) []).dispatched := by
    decide +kernel
  have hParam : (ofSection .constParam).yields param := rfl
  rcases run_safe with ⟨hRun, hChildren, _, hRoles, _⟩
  rcases hRun (.ofSection .constParam) tokens with ⟨hTyped, _⟩
  rcases hChildren .constParam .name _ rfl with
    ⟨_, _, hFits⟩
  rcases hRoles _ param hParam with ⟨hBound, hText, _⟩
  refine ⟨hStep, hTyped step hStep, hFits (.token name) rfl,
    hBound, ?_⟩
  rw [hText]
  decide

end Production

end TraitMarkup
