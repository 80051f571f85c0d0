import TraitMarkup.Machine.Step

/-
  Reading by recursive descent.

  A section that meets a child reads the child at once and goes
  on with the fragment that comes back. The sections around a
  production are handed down as a path of ids, innermost first.

  The machine does the same with frames instead of calls: to
  enter a production in some frames is to read it by descent
  under the ids of the frames, and to deliver what was read.

  Key definitions include:
    * `Leaf.parse`
    * `Section.parse`
    * `Production.parse`
    * `Draft.Takes`

  Main declarations:
    * `Section.run_proceed`
    * `Step.run_enter`
    * `Step.run_deliver`
    * `Step.run_refines_descent`
-/

namespace TraitMarkup

------------------------------------------------------------
-- What A Reader Hands Back
------------------------------------------------------------

/- A fragment, and a place nearer to the end than `bound`. -/
structure Yield (bound : Nat) where
  fragment : Fragment
  cursor : Cursor
  within : cursor.rest.length < bound

namespace Yield

/- What was found, measured from an earlier place. -/
def widen
    {bound wider : Nat}
    (found : Yield bound)
    (hWider : bound ≤ wider) :
    Yield wider where
  fragment := found.fragment
  cursor := found.cursor
  within := Nat.lt_of_lt_of_le found.within hWider

/- What was found, without the measure. -/
def toPair
    {bound : Nat}
    (found : Yield bound) :
    Fragment × Cursor :=
  (found.fragment, found.cursor)

/- A place that was reached is within the bound. -/
theorem within_of_toPair
    {bound : Nat}
    {outcome : Except Fault (Yield bound)}
    {fragment : Fragment}
    {cursor : Cursor}
    (hOutcome :
      outcome.map toPair = .ok (fragment, cursor)) :
    cursor.rest.length < bound := by
  cases outcome with
  | error fault => cases hOutcome
  | ok found =>
      cases hOutcome
      exact found.within

end Yield

/- Stop a production inside its path because of a cause. -/
def Production.reject
    {α : Type}
    (production : Production)
    (path : List String)
    (cause : Cause) :
    Except Fault α :=
  .error (.rejected (production.failure path cause))

------------------------------------------------------------
-- Leaves
------------------------------------------------------------

namespace Leaf

/-
  Read the code of a leaf token by token up to its closing
  tag. Here `code` is the code that was read so far.
-/
def descend
    (leaf : Leaf)
    (path : List String)
    (code : Code)
    (before : List Token) :
    (rest : List Token) → Except Fault (Yield rest.length)
  | [] =>
      (Production.ofLeaf leaf).reject path
        (.endOfInput before.head?)
  | token :: rest =>
      if token.closes leaf.closeTag.text then
        match leaf.build code token with
        | .error complaint =>
            (Production.ofLeaf leaf).reject path
              (.malformed complaint)
        | .ok fragment =>
            .ok ⟨fragment, ⟨token :: before, rest⟩,
              Nat.lt_succ_self _⟩
      else if token.isContent then
        (leaf.descend path (code ++ [token])
          (token :: before) rest).map
            (·.widen (Nat.le_succ _))
      else
        (Production.ofLeaf leaf).reject path
          (.unexpected token)

end Leaf

------------------------------------------------------------
-- Sections
------------------------------------------------------------

mutual

/- Read a production at a place. -/
def Production.descend
    (production : Production)
    (path : List String)
    (cursor : Cursor) :
    Except Fault (Yield cursor.rest.length) :=
  match production with
  | .ofLeaf leaf =>
      leaf.descend path [] cursor.before cursor.rest
  | .ofSection group =>
      group.descend path .empty cursor.before cursor.rest
termination_by (cursor.rest.length, 1)

/- Read the rest of a section that has collected a draft. -/
def Section.descend
    (group : Section)
    (path : List String)
    (draft : Draft)
    (before : List Token)
    (rest : List Token) :
    Except Fault (Yield rest.length) :=
  match rest with
  | [] =>
      (Production.ofSection group).reject path
        (.endOfInput before.head?)
  | token :: rest =>
      match group.read token with
      | .close =>
          match group.close path draft token with
          | .error fault => .error fault
          | .ok fragment =>
              .ok ⟨fragment, ⟨token :: before, rest⟩,
                Nat.lt_succ_self _⟩
      | .opening tag child =>
          match group.prior? draft child with
          | some prior =>
              (Production.ofSection group).reject path
                (.redefined child.label (some prior) token)
          | none =>
              match child.production.descend (group.id :: path)
                  ⟨token :: before, rest⟩ with
              | .error fault => .error fault
              | .ok found =>
                  (group.descend path
                    (draft.add (.child tag found.fragment))
                    found.cursor.before found.cursor.rest).map
                      (·.widen (Nat.le_succ_of_le
                        (Nat.le_of_lt found.within)))
      | .mark tag =>
          if draft.marked tag then
            (Production.ofSection group).reject path
              (.redefined tag.text none token)
          else
            (group.descend path (draft.add (.mark tag))
              (token :: before) rest).map
                (·.widen (Nat.le_succ _))
      | .stray =>
          (Production.ofSection group).reject path
            (.unexpected token)
termination_by (rest.length, 0)
decreasing_by
  · exact Prod.Lex.left _ _ (Nat.lt_succ_self _)
  · exact Prod.Lex.left _ _ (Nat.lt_succ_of_lt found.within)
  · exact Prod.Lex.left _ _ (Nat.lt_succ_self _)

end

------------------------------------------------------------
-- Reading Without The Measure
------------------------------------------------------------

namespace Leaf

/- Read the rest of a leaf that holds some code already. -/
def parse
    (leaf : Leaf)
    (path : List String)
    (code : Code)
    (before rest : List Token) :
    Except Fault (Fragment × Cursor) :=
  (leaf.descend path code before rest).map Yield.toPair

/- A leaf that is never closed. -/
theorem parse_nil
    (leaf : Leaf)
    (path : List String)
    (code : Code)
    (before : List Token) :
    leaf.parse path code before [] =
      (Production.ofLeaf leaf).reject path
        (.endOfInput before.head?) :=
  rfl

/- What a leaf does at its next token. -/
theorem parse_cons
    (leaf : Leaf)
    (path : List String)
    (code : Code)
    (before : List Token)
    (token : Token)
    (rest : List Token) :
    leaf.parse path code before (token :: rest) =
      if token.closes leaf.closeTag.text then
        match leaf.build code token with
        | .error complaint =>
            (Production.ofLeaf leaf).reject path
              (.malformed complaint)
        | .ok fragment =>
            .ok (fragment, ⟨token :: before, rest⟩)
      else if token.isContent then
        leaf.parse path (code ++ [token]) (token :: before)
          rest
      else
        (Production.ofLeaf leaf).reject path
          (.unexpected token) := by
  simp only [parse, descend]
  by_cases hClose : token.closes leaf.closeTag.text
  · simp only [hClose, if_true]
    cases leaf.build code token <;> rfl
  · by_cases hContent : token.isContent
    · simp only [hClose, hContent, if_true]
      cases leaf.descend path (code ++ [token])
        (token :: before) rest <;> rfl
    · simp only [hClose, hContent]
      rfl

end Leaf

namespace Production

/- Read a production at a place. -/
def parse
    (production : Production)
    (path : List String)
    (cursor : Cursor) :
    Except Fault (Fragment × Cursor) :=
  (production.descend path cursor).map Yield.toPair

end Production

namespace Section

/- Read the rest of a section that has collected a draft. -/
def parse
    (group : Section)
    (path : List String)
    (draft : Draft)
    (before rest : List Token) :
    Except Fault (Fragment × Cursor) :=
  (group.descend path draft before rest).map Yield.toPair

/- A section that is never closed. -/
theorem parse_nil
    (group : Section)
    (path : List String)
    (draft : Draft)
    (before : List Token) :
    group.parse path draft before [] =
      (Production.ofSection group).reject path
        (.endOfInput before.head?) := by
  unfold parse Section.descend
  rfl

/- What a section does at its next token. -/
theorem parse_cons
    (group : Section)
    (path : List String)
    (draft : Draft)
    (before : List Token)
    (token : Token)
    (rest : List Token) :
    group.parse path draft before (token :: rest) =
      match group.read token with
      | .close =>
          (group.close path draft token).map
            (fun fragment =>
              (fragment, ⟨token :: before, rest⟩))
      | .opening tag child =>
          match group.prior? draft child with
          | some prior =>
              (Production.ofSection group).reject path
                (.redefined child.label (some prior) token)
          | none =>
              (child.production.parse (group.id :: path)
                ⟨token :: before, rest⟩).bind
                (fun (fragment, cursor) =>
                  group.parse path
                    (draft.add (.child tag fragment))
                    cursor.before cursor.rest)
      | .mark tag =>
          if draft.marked tag then
            (Production.ofSection group).reject path
              (.redefined tag.text none token)
          else
            group.parse path (draft.add (.mark tag))
              (token :: before) rest
      | .stray =>
          (Production.ofSection group).reject path
            (.unexpected token) := by
  rw [parse, Section.descend]
  cases hRead : group.read token with
  | close =>
      cases group.close path draft token <;> rfl
  | opening tag child =>
      dsimp only
      cases group.prior? draft child with
      | some prior => rfl
      | none =>
          simp only [Production.parse]
          cases child.production.descend (group.id :: path)
              ⟨token :: before, rest⟩ with
          | error fault => rfl
          | ok found =>
              simp only [Except.map, Except.bind, parse,
                Yield.toPair]
              cases group.descend path
                (draft.add (.child tag found.fragment))
                found.cursor.before found.cursor.rest <;> rfl
  | mark tag =>
      by_cases hMarked : draft.marked tag
      · simp only [hMarked, if_true]
        rfl
      · simp only [hMarked, parse]
        cases group.descend path (draft.add (.mark tag))
          (token :: before) rest <;> rfl
  | stray => rfl

end Section

namespace Production

/- A leaf is read from its start. -/
theorem parse_ofLeaf
    (leaf : Leaf)
    (path : List String)
    (cursor : Cursor) :
    (ofLeaf leaf).parse path cursor =
      leaf.parse path [] cursor.before cursor.rest := by
  rw [parse, Production.descend]
  rfl

/- A section is read from its start. -/
theorem parse_ofSection
    (group : Section)
    (path : List String)
    (cursor : Cursor) :
    (ofSection group).parse path cursor =
      group.parse path .empty cursor.before
        cursor.rest := by
  rw [parse, Production.descend]
  rfl

end Production

------------------------------------------------------------
-- Frames Against Calls
------------------------------------------------------------

/-
  Hand to frames what came of reading: a fragment is delivered
  to them, and a fault ends the run.
-/
def Frames.receive
    (frames : Frames) :
    Except Fault (Fragment × Cursor) →
      Except Fault (Fragment × Cursor)
  | .error fault => .error fault
  | .ok (fragment, cursor) =>
      (Step.deliver frames cursor fragment).run

namespace Leaf

/-
  The loop over tokens and the cut at the first tag agree. The
  code read so far is in front of what is still to be cut.
-/
theorem parse_eq_cut
    (leaf : Leaf)
    (path : List String)
    (code : Code)
    (before rest : List Token) :
    leaf.parse path code before rest =
      match rest.dropWhile Token.isContent with
      | [] =>
          (Production.ofLeaf leaf).reject path
            (.endOfInput
              ((rest.takeWhile Token.isContent).reverse
                ++ before).head?)
      | token :: later =>
          let more := rest.takeWhile Token.isContent
          if token.closes leaf.closeTag.text then
            match leaf.build (code ++ more) token with
            | .error complaint =>
                (Production.ofLeaf leaf).reject path
                  (.malformed complaint)
            | .ok fragment =>
                .ok (fragment,
                  ⟨token :: (more.reverse ++ before), later⟩)
          else
            (Production.ofLeaf leaf).reject path
              (.unexpected token) := by
  induction rest generalizing code before with
  | nil => rfl
  | cons token rest ih =>
      rw [parse_cons]
      by_cases hContent : token.isContent
      · have hClose :
            token.closes leaf.closeTag.text = false := by
          simp only [Token.isContent] at hContent
          simp only [Token.closes]
          grind
        simp only [hClose, hContent, if_true,
          List.dropWhile_cons, List.takeWhile_cons,
          List.reverse_cons, List.append_assoc,
          List.singleton_append]
        rw [ih]
        simp
      · simp [hContent]

/- The machine hands over what the loop over tokens finds. -/
theorem run_proceed
    (leaf : Leaf)
    (frames : Frames)
    (cursor : Cursor) :
    (leaf.proceed frames cursor).bind Step.run =
      frames.receive
        (leaf.parse frames.chain [] cursor.before
          cursor.rest) := by
  rw [parse_eq_cut, proceed]
  cases cursor.rest.dropWhile Token.isContent with
  | nil => rfl
  | cons token later =>
      dsimp only
      by_cases hClose : token.closes leaf.closeTag.text
      · simp only [hClose, if_true, List.nil_append]
        cases leaf.build
            (cursor.rest.takeWhile Token.isContent) token with
        | error complaint => rfl
        | ok fragment =>
            simp [Frames.receive, Except.bind, Cursor.past]
      · simp only [hClose]
        rfl

end Leaf

namespace Step

/- A step that has a next one runs as the next one does. -/
theorem run_of_next
    {step : Step}
    {outcome : Except Fault Step}
    (hNext : step.next = outcome.map .more) :
    step.run = outcome.bind run := by
  rw [run]
  cases outcome with
  | error fault =>
      split <;> simp_all [Except.map, Except.bind]
  | ok later =>
      split <;> simp_all [Except.map, Except.bind]

/- A production that is entered is started. -/
theorem run_enter_eq
    (production : Production)
    (cursor : Cursor)
    (frames : Frames) :
    (enter production.id cursor frames).run =
      (production.start frames cursor).bind run := by
  apply run_of_next
  simp only [next, Production.ofId?_id]

/- A section that is resumed takes in its child and goes on. -/
theorem run_deliver_eq
    {group : Section}
    {tag : Tag}
    {child : Child}
    (hChild : group.child? tag = some child)
    (draft : Draft)
    (frames : Frames)
    (cursor : Cursor)
    (fragment : Fragment) :
    (deliver (⟨group.id, tag.text, draft⟩ :: frames) cursor
        fragment).run =
      (group.proceed frames
        (draft.add (.child tag fragment)) cursor.before
        cursor.rest).bind run := by
  have hTarget :
      Production.ofId? group.id =
        some (.ofSection group) :=
    Production.ofId?_id (.ofSection group)
  apply run_of_next
  simp only [next, hTarget, Production.resume,
    Section.resume, Tag.ofText?_text, hChild]

end Step

namespace Section

/- The child that a token opens is in the table. -/
theorem child?_of_read
    {group : Section}
    {token : Token}
    {tag : Tag}
    {child : Child}
    (hRead : group.read token = .opening tag child) :
    group.child? tag = some child := by
  unfold read at hRead
  split at hRead
  · cases hRead
  · split at hRead
    · split at hRead
      · cases hRead
      · rename_i hChild
        cases hRead
        exact hChild
    · split at hRead <;> cases hRead
    · cases hRead

/-
  The machine reads on in a section as the descent does. The
  induction is on the tokens that are left: a child takes some
  of them, and the section goes on with fewer.
-/
theorem run_proceed
    (group : Section)
    (frames : Frames)
    (draft : Draft)
    (before rest : List Token) :
    (group.proceed frames draft before rest).bind Step.run =
      frames.receive
        (group.parse frames.chain draft before rest) := by
  induction hLength : rest.length using Nat.strongRecOn
    generalizing group frames draft before rest with
  | ind length ih =>
  cases rest with
  | nil =>
      rw [parse_nil]
      rfl
  | cons token rest =>
      subst hLength
      rw [parse_cons, proceed]
      cases hRead : group.read token with
      | close =>
          dsimp only
          cases group.close frames.chain draft token <;> rfl
      | opening tag child =>
          dsimp only
          cases group.prior? draft child with
          | some prior => rfl
          | none =>
              have hChild := child?_of_read hRead
              let frame : Frame := ⟨group.id, tag.text, draft⟩
              let place : Cursor := ⟨token :: before, rest⟩
              have hStart :
                  (child.production.start (frame :: frames)
                      place).bind Step.run =
                    Frames.receive (frame :: frames)
                      (child.production.parse
                        (group.id :: frames.chain)
                        place) := by
                cases child.production with
                | ofLeaf leaf =>
                    rw [Production.parse_ofLeaf]
                    exact leaf.run_proceed _ place
                | ofSection inner =>
                    rw [Production.parse_ofSection]
                    exact ih rest.length (Nat.lt_succ_self _)
                      inner (frame :: frames) .empty _ rest rfl
              dsimp only [Except.bind]
              rw [Step.run_enter_eq, hStart]
              cases hParse : child.production.parse
                  (group.id :: frames.chain) place with
              | error fault => rfl
              | ok found =>
                  rcases found with ⟨fragment, later⟩
                  have hWithin :
                      later.rest.length < rest.length :=
                    Yield.within_of_toPair hParse
                  exact (Step.run_deliver_eq hChild draft
                    frames later fragment).trans
                      (ih later.rest.length
                        (Nat.lt_succ_of_lt hWithin)
                        _ _ _ _ _ rfl)
      | mark tag =>
          dsimp only
          by_cases hMarked : draft.marked tag
          · simp only [hMarked, if_true]
            rfl
          · simp only [hMarked]
            exact ih rest.length (Nat.lt_succ_self _) _ _ _ _
              _ rfl
      | stray => rfl

end Section

namespace Step

/- To enter a production is to read it and to deliver it. -/
theorem run_enter
    (production : Production)
    (cursor : Cursor)
    (frames : Frames) :
    (enter production.id cursor frames).run =
      frames.receive
        (production.parse frames.chain cursor) := by
  rw [run_enter_eq]
  cases production with
  | ofLeaf leaf =>
      rw [Production.parse_ofLeaf]
      exact leaf.run_proceed frames cursor
  | ofSection group =>
      rw [Production.parse_ofSection]
      exact group.run_proceed frames .empty cursor.before
        cursor.rest

/- To deliver a child is to read on with it. -/
theorem run_deliver
    {group : Section}
    {tag : Tag}
    {child : Child}
    (hChild : group.child? tag = some child)
    (draft : Draft)
    (frames : Frames)
    (cursor : Cursor)
    (fragment : Fragment) :
    (deliver (⟨group.id, tag.text, draft⟩ :: frames) cursor
        fragment).run =
      frames.receive
        (group.parse frames.chain
          (draft.add (.child tag fragment)) cursor.before
          cursor.rest) := by
  rw [run_deliver_eq hChild, Section.run_proceed]

end Step

------------------------------------------------------------
-- Callers
------------------------------------------------------------

/- The failure names open sections and then the path. -/
def Failure.Extends
    (failure : Failure)
    (path : List String) : Prop :=
  ∃ opened : List Section,
    failure.callers = opened.map Section.id ++ path

/- A production that stops itself is called by its path. -/
theorem Production.extends_of_reject
    {α : Type}
    {production : Production}
    {path : List String}
    {cause : Cause}
    {failure : Failure}
    (hReject :
      production.reject path cause =
        (.error (.rejected failure) : Except Fault α)) :
    failure.Extends path := by
  cases hReject
  exact ⟨[], rfl⟩

/- A failure in a child is a failure under its section. -/
theorem Failure.Extends.of_cons
    {failure : Failure}
    {group : Section}
    {path : List String}
    (hExtends : failure.Extends (group.id :: path)) :
    failure.Extends path := by
  rcases hExtends with ⟨opened, hCallers⟩
  exact ⟨opened ++ [group], by simp [hCallers]⟩

/- A leaf that fails is called by its path. -/
theorem Leaf.extends_of_parse
    {leaf : Leaf}
    {path : List String}
    {code : Code}
    {before rest : List Token}
    {failure : Failure}
    (hParse :
      leaf.parse path code before rest =
        .error (.rejected failure)) :
    failure.Extends path := by
  induction rest generalizing code before with
  | nil => exact Production.extends_of_reject hParse
  | cons token rest ih =>
      rw [parse_cons] at hParse
      split at hParse
      · split at hParse
        · exact Production.extends_of_reject hParse
        · cases hParse
      · split at hParse
        · exact ih hParse
        · exact Production.extends_of_reject hParse

/-
  A production that fails names what was open inside it, when
  the sections that fail from the same place do.
-/
theorem Production.extends_of_sections
    {production : Production}
    {path : List String}
    {cursor : Cursor}
    {failure : Failure}
    (hSections :
      ∀ group : Section,
        group.parse path .empty cursor.before cursor.rest =
            .error (.rejected failure) →
          failure.Extends path)
    (hParse :
      production.parse path cursor =
        .error (.rejected failure)) :
    failure.Extends path := by
  cases production with
  | ofLeaf leaf =>
      rw [parse_ofLeaf] at hParse
      exact Leaf.extends_of_parse hParse
  | ofSection group =>
      rw [parse_ofSection] at hParse
      exact hSections group hParse

/- A section that cannot be closed is called by its path. -/
theorem Section.extends_of_close
    {group : Section}
    {path : List String}
    {draft : Draft}
    {token : Token}
    {failure : Failure}
    (hClose :
      group.close path draft token =
        .error (.rejected failure)) :
    failure.Extends path := by
  unfold close at hClose
  split at hClose
  · cases hFinish : group.finish draft with
    | error lack =>
        rw [hFinish] at hClose
        cases hClose
    | ok fragment =>
        rw [hFinish] at hClose
        cases hClose
  · split at hClose
    · cases hClose
    · cases hClose
      exact ⟨[], rfl⟩

/- A section that fails names what was open inside it. -/
theorem Section.extends_of_parse
    {group : Section}
    {path : List String}
    {draft : Draft}
    {before rest : List Token}
    {failure : Failure}
    (hParse :
      group.parse path draft before rest =
        .error (.rejected failure)) :
    failure.Extends path := by
  induction hLength : rest.length using Nat.strongRecOn
    generalizing group path draft before rest with
  | ind length ih =>
  cases rest with
  | nil =>
      rw [parse_nil] at hParse
      exact Production.extends_of_reject hParse
  | cons token rest =>
      subst hLength
      rw [parse_cons] at hParse
      split at hParse
      · cases hClose : group.close path draft token with
        | error fault =>
            simp only [hClose, Except.map] at hParse
            cases hParse
            exact extends_of_close hClose
        | ok fragment => simp [hClose, Except.map] at hParse
      · rename_i tag child hRead
        split at hParse
        · exact Production.extends_of_reject hParse
        · cases hInner : child.production.parse
              (group.id :: path) ⟨token :: before, rest⟩ with
          | error fault =>
              simp only [hInner, Except.bind] at hParse
              cases hParse
              apply Failure.Extends.of_cons
              apply Production.extends_of_sections _ hInner
              intro inner hFound
              exact ih rest.length (Nat.lt_succ_self _) hFound
                rfl
          | ok found =>
              rcases found with ⟨fragment, later⟩
              have hWithin :
                  later.rest.length < rest.length :=
                Yield.within_of_toPair hInner
              simp only [hInner, Except.bind] at hParse
              exact ih later.rest.length
                (Nat.lt_succ_of_lt hWithin) hParse rfl
      · split at hParse
        · exact Production.extends_of_reject hParse
        · exact ih rest.length (Nat.lt_succ_self _) hParse rfl
      · exact Production.extends_of_reject hParse

/- A production that fails names what was open inside it. -/
theorem Production.extends_of_parse
    {production : Production}
    {path : List String}
    {cursor : Cursor}
    {failure : Failure}
    (hParse :
      production.parse path cursor =
        .error (.rejected failure)) :
    failure.Extends path :=
  extends_of_sections
    (fun _ hFound => Section.extends_of_parse hFound)
    hParse

------------------------------------------------------------
-- Taking In A Child
------------------------------------------------------------

/-
  The draft `later` is `draft` with a value put into the field
  of a child: behind the values the field had, so that a field
  for a single value has this one. All else is as it was.
-/
structure Draft.Takes
    (group : Section)
    (tag : Tag)
    (child : Child)
    (value : Fragment)
    (draft later : Draft) : Prop where
  values :
    later.values group child.field =
      draft.values group child.field ++ [value]
  value :
    later.value? group child.field = value.some?
  others :
    ∀ field, field ≠ child.field →
      later.values group field = draft.values group field
  marks :
    ∀ mark, later.marked mark = draft.marked mark
  pattern :
    later.isPattern group =
      if child.field = .arg then
        decide (tag = .pat)
      else
        draft.isPattern group

/- A completed child is taken into the field of its tag. -/
theorem Draft.takes_add
    {group : Section}
    {tag : Tag}
    {child : Child}
    (hChild : group.child? tag = some child)
    (draft : Draft)
    (fragment : Fragment) :
    draft.Takes group tag child (child.adapt fragment)
      (draft.add (.child tag fragment)) where
  values := by
    simp [values, add, Entry.value?, hChild]
  value := by
    simp [value?, values, add, Entry.value?, hChild]
  others := by
    intro field hField
    simp [values, add, Entry.value?, hChild, Ne.symm hField]
  marks := by
    intro mark
    simp [marked, add]
  pattern := by
    by_cases hField : child.field = .arg <;>
      simp [isPattern, add, Entry.tagFor?, Entry.value?,
        hChild, hField]

------------------------------------------------------------
-- Refinement
------------------------------------------------------------

/-
  The machine refines the descent, whatever frames wait and
  whatever drafts they saved. A production that is entered is
  read under the ids of the frames, and a frame that receives a
  fragment takes it into its draft and reads its section to the
  end. What is read goes to the frames around it; a fault of
  the descent is the fault of the run.
-/
theorem Step.run_refines_descent :
    (∀ (production : Production)
        (cursor : Cursor)
        (frames : Frames),
      (enter production.id cursor frames).run =
          frames.receive
            (production.parse frames.chain cursor) ∧
        ∀ failure,
          production.parse frames.chain cursor =
              .error (.rejected failure) →
            failure.Extends frames.chain) ∧
    (∀ (group : Section)
        (tag : Tag)
        (child : Child)
        (draft : Draft)
        (frames : Frames)
        (cursor : Cursor)
        (fragment : Fragment),
      group.child? tag = some child →
        draft.Takes group tag child (child.adapt fragment)
            (draft.add (.child tag fragment)) ∧
          (deliver (⟨group.id, tag.text, draft⟩ :: frames)
              cursor fragment).run =
            frames.receive
              (group.parse frames.chain
                (draft.add (.child tag fragment))
                cursor.before cursor.rest)) := by
  constructor
  · intro production cursor frames
    refine ⟨run_enter production cursor frames, ?_⟩
    intro failure hParse
    exact Production.extends_of_parse hParse
  · intro group tag child draft frames cursor fragment hChild
    exact
      ⟨Draft.takes_add hChild draft fragment,
        run_deliver hChild draft frames cursor fragment⟩

/-
  A type parameter inside the bounds of a trait is cut short,
  and a supertrait is delivered to the same bounds.
-/
theorem Step.run_refines_descent_in_bounds :
    let frames : Frames := [⟨"trait", "bounds", .empty⟩]
    let place : Cursor := .ofTokens [.ofOpenTag "type"]
    let path : Fragment :=
      .bound (.trait { path := [⟨.ident, "Copy", false, {}⟩] })
    (∃ failure : Failure,
      (enter "bounds" place frames).run =
          .error (.rejected failure) ∧
        failure.callers = ["bounds", "trait"] ∧
        failure.Extends frames.chain) ∧
    (deliver (⟨"bounds", "req", .empty⟩ :: frames) place
        path).run =
      frames.receive
        (Section.bounds.parse frames.chain
          (Draft.empty.add (.child .req path)) place.before
          place.rest) := by
  intro frames place path
  have hParse :
      (Production.ofSection .bounds).parse frames.chain
          place =
        .error (.rejected
          ((Production.ofSection .typeParam).failure
            ["bounds", "trait"]
            (.endOfInput (some (.ofOpenTag "type"))))) := by
    have hRead :
        Section.bounds.read (.ofOpenTag "type") =
          .opening .type
            (.many (.ofSection .typeParam) .types) := by
      decide
    rw [Production.parse_ofSection]
    simp only [place, Cursor.ofTokens]
    rw [Section.parse_cons, hRead]
    simp only [Section.prior?, Child.many, if_true]
    rw [Production.parse_ofSection, Section.parse_nil]
    rfl
  rcases run_refines_descent with ⟨hEnter, hDeliver⟩
  rcases hEnter (.ofSection .bounds) place frames with
    ⟨hRun, hCallers⟩
  rw [hParse] at hRun
  exact
    ⟨⟨_, hRun, rfl, hCallers _ hParse⟩,
      (hDeliver .bounds .req (.many (.ofLeaf .req) .reqs)
        .empty frames place path rfl).2⟩

end TraitMarkup
