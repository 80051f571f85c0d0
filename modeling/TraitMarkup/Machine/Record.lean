import TraitMarkup.Machine.Step

/-
  What a run leaves on record: its steps and its outcome.

  A step is written down before it is taken. A run in which
  something cannot be written down ends there: on record are
  the steps before it, and what was lacking.

  Key definitions include:
    * `Frame.draftTree`
    * `Step.lack?`
    * `Record`
    * `Step.record`
-/

namespace TraitMarkup

------------------------------------------------------------
-- Writing Down
------------------------------------------------------------

/- What a frame has collected, as a tree. -/
def Frame.draftTree
    (frame : Frame) :
    Tree :=
  match Production.ofId? frame.target with
  | some (.ofSection group) => frame.draft.toTree group
  | _ => .nothing

/- The first thing that keeps a step from being written. -/
def Step.lack? : Step → Option Lack
  | enter _ _ _ => none
  | deliver [] _ fragment => fragment.toTree.lack?
  | deliver (frame :: _) _ fragment =>
      frame.draftTree.lack? <|> fragment.toTree.lack?

/- The first thing that keeps a fault from being written. -/
def Fault.lack? : Fault → Option Lack
  | rejected failure =>
      match failure.kind with
      | .duplication (some prior) => prior.toTree.lack?
      | _ => none
  | _ => none

------------------------------------------------------------
-- Records
------------------------------------------------------------

/- The steps of a run and what came of it. -/
structure Record where
  steps : List Step
  outcome : Except Fault (Fragment × Cursor)
deriving Repr

/- The outcome of a run, as far as it can be written. -/
def Step.writtenOutcome
    (step : Step) :
    Except Fault (Fragment × Cursor) :=
  match step.run with
  | .error fault =>
      match fault.lack? with
      | some lack => .error (.lacking lack)
      | none => .error fault
  | .ok (fragment, cursor) =>
      match fragment.toTree.lack? with
      | some lack => .error (.lacking lack)
      | none => .ok (fragment, cursor)

/- The record of a run. -/
def Step.record
    (step : Step) :
    Record :=
  let written := fun taken : Step => taken.lack?.isNone
  match (step.trace.dropWhile written).head?.bind lack? with
  | some lack =>
      { steps := step.trace.takeWhile written
        outcome := .error (.lacking lack) }
  | none =>
      { steps := step.trace
        outcome := step.writtenOutcome }

end TraitMarkup
