import TraitMarkup.Machine.Cursor
import TraitMarkup.Machine.Fault

/-
  The machine that reads productions step by step.

  A production that meets a child does not read it: it saves
  its draft in a frame and hands over to the child's
  production. A production that is closed hands its fragment to
  the innermost frame. Frames are addressed by id and tag, so a
  host may build them; names that mean nothing are found out
  when the frame is resumed.

  Every step reads at least one token, so a run always ends.

  Key definitions include:
    * `Frame`
    * `Step`
    * `Section.proceed`
    * `Leaf.proceed`
    * `Step.next`
    * `Step.run`
    * `Step.trace`
-/

namespace TraitMarkup

------------------------------------------------------------
-- Frames And Steps
------------------------------------------------------------

/-
  A section that waits for a child: its id, the tag of the
  child, and what it has collected.
-/
structure Frame where
  target : String
  resume : String
  draft : Draft
deriving DecidableEq, Repr

/- The waiting sections, innermost first. -/
abbrev Frames := List Frame

namespace Frames

/- The ids of the waiting sections. -/
def chain
    (frames : Frames) :
    List String :=
  frames.map Frame.target

end Frames

/- What the machine does next. -/
inductive Step where
  /- Start a production. -/
  | enter
      (production : String)
      (cursor : Cursor)
      (frames : Frames)
  /- Hand a fragment to the innermost frame. -/
  | deliver
      (frames : Frames)
      (cursor : Cursor)
      (fragment : Fragment)
deriving DecidableEq, Repr

namespace Step

/- The place at which a step is taken. -/
def cursor : Step → Cursor
  | enter _ cursor _ => cursor
  | deliver _ cursor _ => cursor

/- The frames that a step is taken in. -/
def frames : Step → Frames
  | enter _ _ frames => frames
  | deliver frames _ _ => frames

end Step

------------------------------------------------------------
-- Leaves
------------------------------------------------------------

/- The token may be part of the code of a leaf. -/
def Token.isContent
    (token : Token) :
    Bool :=
  token.kind ≠ .closeTag && token.kind ≠ .emptyTag

namespace Leaf

/- Read a leaf to its closing tag and hand over its fragment. -/
def proceed
    (leaf : Leaf)
    (frames : Frames)
    (cursor : Cursor) :
    Except Fault Step :=
  let fail := fun cause =>
    .error (.rejected
      ((Production.ofLeaf leaf).failure frames.chain cause))
  let code := cursor.rest.takeWhile Token.isContent
  match cursor.rest.dropWhile Token.isContent with
  | [] => fail (.endOfInput (cursor.past code []).last?)
  | token :: rest =>
      if token.closes leaf.closeTag.text then
        match leaf.build code token with
        | .error complaint => fail (.malformed complaint)
        | .ok fragment =>
            .ok (.deliver frames
              (cursor.past (code ++ [token]) rest) fragment)
      else
        fail (.unexpected token)

end Leaf

------------------------------------------------------------
-- Sections
------------------------------------------------------------

/- What a token means inside a section. -/
inductive Reading where
  /- It closes the section. -/
  | close
  /- It opens a child. -/
  | opening (tag : Tag) (child : Child)
  /- It sets a mark. -/
  | mark (tag : Tag)
  /- It has no place here. -/
  | stray
deriving DecidableEq, Repr

namespace Section

/- What a token means inside the section. -/
def read
    (group : Section)
    (token : Token) :
    Reading :=
  if token.closes group.closeTag.text then
    .close
  else
    match token.kind, token.tagName?.bind Tag.ofText? with
    | .openTag, some tag =>
        match group.child? tag with
        | none => .stray
        | some child => .opening tag child
    | .emptyTag, some tag =>
        if group.hasMark tag then .mark tag else .stray
    | _, _ => .stray

/- The value that another child of this kind would replace. -/
def prior?
    (group : Section)
    (draft : Draft)
    (child : Child) :
    Option Fragment :=
  if child.repeated then
    none
  else
    draft.value? group child.field

/- Close the section at a token. -/
def close
    (group : Section)
    (callers : List String)
    (draft : Draft)
    (token : Token) :
    Except Fault Fragment :=
  match group.missing draft with
  | [] => (group.finish draft).mapError .lacking
  | missing =>
      match group.subject draft with
      | .error lack => .error (.lacking lack)
      | .ok subject =>
          .error (.rejected
            ((Production.ofSection group).failure callers
              (.incomplete missing subject token)))

/-
  Read on inside the section until it is closed or a child is
  met. Here `before` and the list are the tokens before and
  after the place that was reached.
-/
def proceed
    (group : Section)
    (frames : Frames)
    (draft : Draft)
    (before : List Token) :
    List Token → Except Fault Step
  | [] =>
      .error (.rejected
        ((Production.ofSection group).failure frames.chain
          (.endOfInput before.head?)))
  | token :: rest =>
      let fail := fun cause =>
        .error (.rejected
          ((Production.ofSection group).failure frames.chain
            cause))
      match group.read token with
      | .close =>
          match group.close frames.chain draft token with
          | .error fault => .error fault
          | .ok fragment =>
              .ok (.deliver frames ⟨token :: before, rest⟩
                fragment)
      | .opening tag child =>
          match group.prior? draft child with
          | some prior =>
              fail (.redefined child.label (some prior) token)
          | none =>
              .ok (.enter child.production.id
                ⟨token :: before, rest⟩
                (⟨group.id, tag.text, draft⟩ :: frames))
      | .mark tag =>
          if draft.marked tag then
            fail (.redefined tag.text none token)
          else
            proceed group frames (draft.add (.mark tag))
              (token :: before) rest
      | .stray => fail (.unexpected token)

/- Take in a child and read on. -/
def resume
    (group : Section)
    (frame : Frame)
    (frames : Frames)
    (cursor : Cursor)
    (fragment : Fragment) :
    Except Fault Step :=
  match Tag.ofText? frame.resume with
  | none => .error (.unknownChild frame.resume)
  | some tag =>
      match group.child? tag with
      | none => .error (.unknownChild frame.resume)
      | some _ =>
          group.proceed frames
            (frame.draft.add (.child tag fragment))
            cursor.before cursor.rest

end Section

------------------------------------------------------------
-- The Machine
------------------------------------------------------------

/- What comes of a step. -/
inductive Progress where
  /- The last frame is gone: this is the result. -/
  | done (fragment : Fragment) (cursor : Cursor)
  /- There is another step to take. -/
  | more (step : Step)
deriving DecidableEq, Repr

namespace Production

/- Start a production at a place. -/
def start
    (production : Production)
    (frames : Frames)
    (cursor : Cursor) :
    Except Fault Step :=
  match production with
  | .ofLeaf leaf => leaf.proceed frames cursor
  | .ofSection group =>
      group.proceed frames .empty cursor.before cursor.rest

/- Resume a production with the fragment of a child. -/
def resume
    (production : Production)
    (frame : Frame)
    (frames : Frames)
    (cursor : Cursor)
    (fragment : Fragment) :
    Except Fault Step :=
  match production with
  | .ofLeaf leaf => .error (.notResumable leaf)
  | .ofSection group =>
      group.resume frame frames cursor fragment

end Production

namespace Step

/- Take one step. -/
def next : Step → Except Fault Progress
  | enter id cursor frames =>
      match Production.ofId? id with
      | none => .error (.unknownProduction id)
      | some production =>
          (production.start frames cursor).map .more
  | deliver [] cursor fragment => .ok (.done fragment cursor)
  | deliver (frame :: frames) cursor fragment =>
      match Production.ofId? frame.target with
      | none => .error (.unknownProduction frame.target)
      | some production =>
          (production.resume frame frames cursor fragment).map
            .more

end Step

------------------------------------------------------------
-- Progress
------------------------------------------------------------

/- The step stands nearer to the end than a list is long. -/
def Step.Within
    (step : Step)
    (bound : Nat) : Prop :=
  step.cursor.rest.length < bound

/- A leaf hands over nearer to the end. -/
theorem Leaf.within_of_proceed
    {leaf : Leaf}
    {frames : Frames}
    {cursor : Cursor}
    {step : Step}
    (hStep : leaf.proceed frames cursor = .ok step) :
    step.Within cursor.rest.length := by
  unfold Leaf.proceed at hStep
  cases hRest : cursor.rest.dropWhile Token.isContent with
  | nil => simp [hRest] at hStep
  | cons token rest =>
      have hLength :=
        congrArg List.length
          (List.takeWhile_append_dropWhile
            (p := Token.isContent) (l := cursor.rest))
      rw [hRest] at hLength
      simp only [hRest] at hStep
      split at hStep
      · split at hStep
        · cases hStep
        · cases hStep
          simp only [Step.Within, Step.cursor, Cursor.past]
          simp only [List.length_append, List.length_cons]
            at hLength
          omega
      · cases hStep

/- A section hands over nearer to the end. -/
theorem Section.within_of_proceed
    {group : Section}
    {frames : Frames}
    {draft : Draft}
    {before rest : List Token}
    {step : Step}
    (hStep :
      group.proceed frames draft before rest = .ok step) :
    step.Within rest.length := by
  induction rest generalizing draft before with
  | nil => cases hStep
  | cons token rest ih =>
      simp only [Section.proceed] at hStep
      cases hRead : group.read token with
      | close =>
          simp only [hRead] at hStep
          split at hStep
          · cases hStep
          · cases hStep
            simp [Step.Within, Step.cursor]
      | opening tag child =>
          simp only [hRead] at hStep
          split at hStep
          · cases hStep
          · cases hStep
            simp [Step.Within, Step.cursor]
      | mark tag =>
          simp only [hRead] at hStep
          split at hStep
          · cases hStep
          · exact Nat.lt_succ_of_lt (ih hStep)
      | stray =>
          simp only [hRead] at hStep
          cases hStep

namespace Step

/- Every step that goes on stands nearer to the end. -/
theorem within_of_next
    {step later : Step}
    (hNext : step.next = .ok (.more later)) :
    later.Within step.cursor.rest.length := by
  cases step with
  | enter id cursor frames =>
      simp only [next] at hNext
      split at hNext
      · cases hNext
      · rename_i production hFound
        cases hStart : production.start frames cursor with
        | error fault => simp [hStart, Except.map] at hNext
        | ok step =>
            simp only [hStart, Except.map] at hNext
            cases hNext
            cases production with
            | ofLeaf leaf => exact Leaf.within_of_proceed hStart
            | ofSection group =>
                exact Section.within_of_proceed hStart
  | deliver frames cursor fragment =>
      cases frames with
      | nil => simp [next] at hNext
      | cons frame frames =>
          simp only [next] at hNext
          split at hNext
          · cases hNext
          · rename_i production hFound
            cases hResume :
                production.resume frame frames cursor fragment
              with
            | error fault =>
                simp [hResume, Except.map] at hNext
            | ok step =>
                simp only [hResume, Except.map] at hNext
                cases hNext
                cases production with
                | ofLeaf leaf => cases hResume
                | ofSection group =>
                    simp only [Production.resume,
                      Section.resume] at hResume
                    split at hResume
                    · cases hResume
                    · split at hResume
                      · cases hResume
                      · exact
                          Section.within_of_proceed hResume

end Step

------------------------------------------------------------
-- Runs
------------------------------------------------------------

namespace Step

/- Take steps until there is a result or a fault. -/
def run
    (step : Step) :
    Except Fault (Fragment × Cursor) :=
  match _ : step.next with
  | .error fault => .error fault
  | .ok (.done fragment cursor) => .ok (fragment, cursor)
  | .ok (.more later) => later.run
termination_by step.cursor.rest.length
decreasing_by exact within_of_next (by assumption)

/- The production that a step is handed to. -/
def production? : Step → Option Production
  | enter id _ _ => Production.ofId? id
  | deliver [] _ _ => none
  | deliver (frame :: _) _ _ => Production.ofId? frame.target

/- The steps that a run hands to productions, in order. -/
def trace
    (step : Step) :
    List Step :=
  let later :=
    match _ : step.next with
    | .ok (.more later) => later.trace
    | _ => []
  if step.production?.isSome then step :: later else later
termination_by step.cursor.rest.length
decreasing_by exact within_of_next (by assumption)

end Step

namespace Production

/-
  Run a production on the inside of its section, the opening
  tag already read. The tokens after the closing tag are left.
-/
def run
    (id : String)
    (tokens : List Token) :
    Except Fault (Fragment × List Token) :=
  match (Step.enter id (.ofTokens tokens) []).run with
  | .error fault => .error fault
  | .ok (fragment, cursor) => .ok (fragment, cursor.rest)

end Production

end TraitMarkup
