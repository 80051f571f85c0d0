import TraitMarkup.Proofs.Delivery

/-
  Every run ends, whatever step it starts from.

  The machine is a loop without a bound, and the frames of a
  step grow and shrink along the loop. What bounds it is the
  place in the stream: a step that leads to another one has
  read a token, whatever production it was handed to. So a run
  takes at most one step for each token that is left, and one
  more to end.

  Key definitions include:
    * `Step.LeadsTo`
    * `Step.EndsAfter`
    * `Step.bound`

  Main declarations:
    * `Step.LeadsTo.position_lt`
    * `Step.advances`
    * `Step.endsAfter_run`
    * `Step.run_terminates`
-/

namespace TraitMarkup

------------------------------------------------------------
-- Places
------------------------------------------------------------

namespace Cursor

/- A place lies within its stream. -/
theorem position_add_length_rest
    (cursor : Cursor) :
    cursor.position + cursor.rest.length =
      cursor.tokens.length := by
  simp [position, tokens]

/- Reading over tokens keeps the stream. -/
theorem Covers.tokens_eq
    {cursor place : Cursor}
    {taken : List Token}
    (hCovers :
      Covers cursor.before cursor.rest taken place) :
    place.tokens = cursor.tokens := by
  simp [tokens, hCovers.before, hCovers.rest]

/- Reading over tokens moves the place by their number. -/
theorem Covers.position_eq
    {cursor place : Cursor}
    {taken : List Token}
    (hCovers :
      Covers cursor.before cursor.rest taken place) :
    place.position = cursor.position + taken.length := by
  simp [position, hCovers.before, Nat.add_comm]

end Cursor

------------------------------------------------------------
-- One Step
------------------------------------------------------------

namespace Step

/- The step is followed by another one. -/
def LeadsTo
    (step later : Step) : Prop :=
  step.next = .ok (.more later)

/- A step leads to a later place in the same stream. -/
theorem LeadsTo.exists_covers
    {step later : Step}
    (hLeads : step.LeadsTo later) :
    ∃ taken,
      taken ≠ [] ∧
        Cursor.Covers step.cursor.before step.cursor.rest taken
          later.cursor := by
  rcases (moves_of_next hLeads).exists_covers with
    ⟨taken, token, hCovers, _⟩
  exact ⟨taken ++ [token], by simp, hCovers⟩

theorem LeadsTo.tokens_eq
    {step later : Step}
    (hLeads : step.LeadsTo later) :
    later.cursor.tokens = step.cursor.tokens := by
  rcases hLeads.exists_covers with ⟨taken, _, hCovers⟩
  exact hCovers.tokens_eq

theorem LeadsTo.position_lt
    {step later : Step}
    (hLeads : step.LeadsTo later) :
    step.cursor.position < later.cursor.position := by
  rcases hLeads.exists_covers with ⟨taken, hSome, hCovers⟩
  rw [hCovers.position_eq]
  exact Nat.lt_add_of_pos_right (List.length_pos_iff.mpr hSome)

/-
  What comes of a step: a fault, the end of the run at a
  delivery to no frame, or a step at a later place, which is not
  behind the end.
-/
theorem advances
    (step : Step) :
    (∃ fault, step.next = .error fault) ∨
      (∃ cursor fragment,
        step = .deliver [] cursor fragment ∧
          step.next = .ok (.done fragment cursor)) ∨
      ∃ later,
        step.LeadsTo later ∧
          step.cursor.position < later.cursor.position ∧
          later.cursor.position ≤ step.cursor.tokens.length := by
  cases hNext : step.next with
  | error fault => exact .inl ⟨fault, rfl⟩
  | ok progress =>
      right
      cases progress with
      | done fragment cursor =>
          exact .inl
            ⟨cursor, fragment, eq_deliver_of_done hNext, rfl⟩
      | more later =>
          have hLeads : step.LeadsTo later := hNext
          have hLater := later.cursor.position_add_length_rest
          rw [hLeads.tokens_eq] at hLater
          refine .inr ⟨later, hLeads, hLeads.position_lt, ?_⟩
          omega

end Step

------------------------------------------------------------
-- Whole Runs
------------------------------------------------------------

namespace Step

/-
  The loop over steps as a relation: it takes `count` steps and
  ends with the outcome. Nothing is said about steps from which
  the loop would go on forever.
-/
inductive EndsAfter :
    Step → Nat → Except Fault (Fragment × Cursor) → Prop
  | fault
      {step : Step}
      {fault : Fault}
      (hNext : step.next = .error fault) :
      EndsAfter step 1 (.error fault)
  | done
      {step : Step}
      {fragment : Fragment}
      {cursor : Cursor}
      (hNext : step.next = .ok (.done fragment cursor)) :
      EndsAfter step 1 (.ok (fragment, cursor))
  | more
      {step later : Step}
      {count : Nat}
      {outcome : Except Fault (Fragment × Cursor)}
      (hLeads : step.LeadsTo later)
      (hLater : EndsAfter later count outcome) :
      EndsAfter step (count + 1) outcome

/- A step for each token that is left, and one to end. -/
def bound
    (step : Step) :
    Nat :=
  step.cursor.tokens.length - step.cursor.position + 1

/- A step that leads to another one leaves less to be done. -/
theorem LeadsTo.bound_lt
    {step later : Step}
    (hLeads : step.LeadsTo later) :
    later.bound < step.bound := by
  have hLater := later.cursor.position_add_length_rest
  have hPosition := hLeads.position_lt
  unfold bound
  rw [hLeads.tokens_eq] at hLater ⊢
  omega

/- The loop ends with the outcome of the run. -/
theorem endsAfter_run
    (step : Step) :
    step.EndsAfter step.dispatched.length step.run := by
  induction step using run_induction with
  | last step hLast =>
      rw [dispatched_of_last hLast, run]
      split
      · exact .fault ‹_›
      · exact .done ‹_›
      · exact absurd ‹_› (hLast _)
  | more step later hNext ih =>
      rw [dispatched_of_more hNext, run_of_more hNext]
      exact .more hNext ih

/- The loop ends in one way only. -/
theorem EndsAfter.unique
    {step : Step}
    {count other : Nat}
    {outcome found : Except Fault (Fragment × Cursor)}
    (hEnds : step.EndsAfter count outcome)
    (hFound : step.EndsAfter other found) :
    count = other ∧ outcome = found := by
  induction hEnds generalizing other with
  | fault hNext =>
      cases hFound with
      | fault hOther =>
          cases hNext.symm.trans hOther
          exact ⟨rfl, rfl⟩
      | done hOther => cases hNext.symm.trans hOther
      | more hOther => cases hNext.symm.trans hOther
  | done hNext =>
      cases hFound with
      | fault hOther => cases hNext.symm.trans hOther
      | done hOther =>
          cases hNext.symm.trans hOther
          exact ⟨rfl, rfl⟩
      | more hOther => cases hNext.symm.trans hOther
  | more hLeads _ ih =>
      cases hFound with
      | fault hOther => cases hLeads.symm.trans hOther
      | done hOther => cases hLeads.symm.trans hOther
      | more hOther hLater =>
          cases hLeads.symm.trans hOther
          rcases ih hLater with ⟨rfl, rfl⟩
          exact ⟨rfl, rfl⟩

/- A loop that ends does so within the bound. -/
theorem EndsAfter.le_bound
    {step : Step}
    {count : Nat}
    {outcome : Except Fault (Fragment × Cursor)}
    (hEnds : step.EndsAfter count outcome) :
    count ≤ step.bound := by
  induction hEnds with
  | fault => simp [bound]
  | done => simp [bound]
  | more hLeads _ ih =>
      exact Nat.succ_le_of_lt
        (Nat.lt_of_le_of_lt ih hLeads.bound_lt)

/- Each step of a run leads to the one after it. -/
theorem isChain_dispatched
    (step : Step) :
    step.dispatched.IsChain LeadsTo := by
  induction step using run_induction with
  | last step hLast =>
      rw [dispatched_of_last hLast]
      exact .singleton step
  | more step later hNext ih =>
      rw [dispatched_of_more hNext]
      rw [dispatched] at ih ⊢
      exact .cons_cons hNext ih

/- Steps that lead to one another are the first of a run. -/
theorem isPrefix_dispatched
    {step : Step}
    {steps : List Step}
    (hChain : (step :: steps).IsChain LeadsTo) :
    step :: steps <+: step.dispatched := by
  induction steps generalizing step with
  | nil =>
      rw [dispatched]
      exact List.cons_prefix_cons.mpr ⟨rfl, List.nil_prefix⟩
  | cons later steps ih =>
      rcases List.isChain_cons_cons.mp hChain with
        ⟨hLeads, hRest⟩
      rw [dispatched_of_more hLeads]
      exact List.cons_prefix_cons.mpr ⟨rfl, ih hRest⟩

/- A run stays in its stream. -/
theorem tokens_of_dispatched
    {start step : Step}
    (hStep : step ∈ start.dispatched) :
    step.cursor.tokens = start.cursor.tokens := by
  rcases List.append_of_mem hStep with ⟨earlier, later, hSplit⟩
  refine dispatched_invariant
    (fun _ step => step.cursor.tokens = start.cursor.tokens)
    ?_ [] rfl hSplit
  intro _ step later hTokens hNext
  exact (LeadsTo.tokens_eq hNext).trans hTokens

end Step

------------------------------------------------------------
-- Termination
------------------------------------------------------------

/-
  A run ends from any step, in any frames. Each of its steps
  comes to a fault, ends the run, or leads to a step that is
  further on in the same stream and not behind its end. So the
  loop takes at most one step for each token that is left and
  one more, it ends as the run does and in no other way, and no
  chain of steps goes on beyond those of the run.
-/
theorem Step.run_terminates
    (start : Step) :
    let length := start.cursor.tokens.length
    (∀ step ∈ start.dispatched,
      step.cursor.tokens = start.cursor.tokens ∧
        ((∃ fault, step.next = .error fault) ∨
          (∃ cursor fragment,
            step = .deliver [] cursor fragment ∧
              step.next = .ok (.done fragment cursor)) ∨
          ∃ later ∈ start.dispatched,
            step.LeadsTo later ∧
              step.cursor.position < later.cursor.position ∧
              later.cursor.position ≤ length)) ∧
    start.dispatched.length ≤
      length - start.cursor.position + 1 ∧
    start.EndsAfter start.dispatched.length start.run ∧
    (∀ count outcome,
      start.EndsAfter count outcome →
        count = start.dispatched.length ∧
          outcome = start.run) ∧
    start.dispatched.IsChain LeadsTo ∧
    (∀ steps : List Step,
      (start :: steps).IsChain LeadsTo →
        start :: steps <+: start.dispatched) := by
  intro length
  have hEnds := start.endsAfter_run
  refine ⟨?_, hEnds.le_bound, hEnds, ?_,
    start.isChain_dispatched, ?_⟩
  · intro step hStep
    have hTokens := tokens_of_dispatched hStep
    refine ⟨hTokens, ?_⟩
    rcases step.advances with
      hFault | hLast | ⟨later, hLeads, hPosition, hBound⟩
    · exact .inl hFault
    · exact .inr (.inl hLast)
    · have hLater :=
        mem_dispatched_trans hStep
          (mem_dispatched_of_next hLeads
            (mem_dispatched_self later))
      rw [hTokens] at hBound
      exact .inr (.inr
        ⟨later, hLater, hLeads, hPosition, hBound⟩)
  · intro count outcome hOther
    exact hOther.unique hEnds
  · intro steps hChain
    exact isPrefix_dispatched hChain

/-
  A body that is closed at once takes all steps it may take. A
  delivery to an unknown production ends with a fault.
-/
theorem Step.run_terminates_body :
    let close : Token := .ofCloseTag "rust"
    let start : Step := .enter "rust" ⟨[], [close]⟩ []
    let final : Step := .deliver [] ⟨[close], []⟩ (.code [])
    let lost : Step :=
      .deliver [⟨"nowhere", "rust", .empty⟩] ⟨[], [close]⟩
        (.code [])
    (start.dispatched.length = 2 ∧ start.bound = 2 ∧
      start.run = .ok (.code [], ⟨[close], []⟩) ∧
      start.cursor.position < final.cursor.position ∧
      final.cursor.position ≤ start.cursor.tokens.length ∧
      [start, final] <+: start.dispatched) ∧
    lost.dispatched.length = 1 ∧
      lost.run = .error (.unknownProduction "nowhere") := by
  intro close start final lost
  have hNext : start.next = .ok (.more final) := by
    decide +kernel
  have hLost :
      lost.next = .error (.unknownProduction "nowhere") := by
    decide +kernel
  rcases run_terminates start with
    ⟨hSteps, _, _, hUnique, _, hChains⟩
  have hLength := hUnique 2 _ (.more hNext (.done rfl))
  have hEnd := (run_terminates lost).2.2.2.1 1 _ (.fault hLost)
  have hPlace :
      start.cursor.position < final.cursor.position ∧
        final.cursor.position ≤ start.cursor.tokens.length := by
    rcases (hSteps start (mem_dispatched_self start)).2 with
      ⟨fault, hFault⟩ | ⟨_, _, hLast, _⟩ |
        ⟨later, _, hLeads, hPosition⟩
    · cases hNext.symm.trans hFault
    · simp [start] at hLast
    · cases hNext.symm.trans hLeads
      exact hPosition
  exact ⟨⟨hLength.1.symm, rfl, hLength.2.symm, hPlace.1,
    hPlace.2,
    hChains [final] (.cons_cons hNext (.singleton final))⟩,
    hEnd.1.symm, hEnd.2.symm⟩

end TraitMarkup
