import TraitMarkup.Proofs.Acceptance

/-
  How a production fails to be read.

  A leaf fails at the first token that cannot be part of its
  code, or at its closing tag. A section takes in pieces up to
  a token that it cannot go on with, or up to a child that
  fails. Nothing else can go wrong, since what was taken in has
  the shapes that the section was built for.

  Key definitions include:
    * `Leaf.Halts`
    * `Section.Halts`
    * `Production.Fails`
    * `TraitDecl.Refused`

  Main declarations:
    * `Section.close_eq_error`
    * `Section.fails_of_parse`
    * `Production.fails_of_parse`
    * `TraitDecl.refused_of_ofTokens`
-/

namespace TraitMarkup

------------------------------------------------------------
-- Where Reading Stops
------------------------------------------------------------

/- The tokens from a place on stop a leaf, for a cause. -/
inductive Leaf.Halts
    (leaf : Leaf)
    (before : List Token) :
    List Token → Cause → Prop
  | endOfInput
      {code : Code}
      (hContent : code.IsContent) :
      Halts leaf before code
        (.endOfInput (code.reverse ++ before).head?)
  | unexpected
      {code : Code}
      {token : Token}
      {rest : List Token}
      (hContent : code.IsContent)
      (hOther : token.isContent = false)
      (hOpen : token.closes leaf.closeTag.text = false) :
      Halts leaf before (code ++ token :: rest)
        (.unexpected token)
  | malformed
      {code : Code}
      {token : Token}
      {rest : List Token}
      {complaint : Malformed}
      (hContent : code.IsContent)
      (hCloses : token.closes leaf.closeTag.text)
      (hBuild : leaf.build code token = .error complaint) :
      Halts leaf before (code ++ token :: rest)
        (.malformed complaint)

/- The next token stops a section with a draft, for a cause. -/
inductive Section.Halts
    (group : Section)
    (draft : Draft)
    (before : List Token) :
    List Token → Cause → Prop
  | endOfInput :
      Halts group draft before [] (.endOfInput before.head?)
  | child
      {token : Token}
      {rest : List Token}
      {tag : Tag}
      {child : Child}
      {prior : Fragment}
      (hOpens : token.opens tag.text)
      (hChild : group.child? tag = some child)
      (hPrior : group.prior? draft child = some prior) :
      Halts group draft before (token :: rest)
        (.redefined child.label (some prior) token)
  | mark
      {token : Token}
      {rest : List Token}
      {tag : Tag}
      (hMarks : token.marks tag.text)
      (hMark : group.hasMark tag)
      (hSet : draft.marked tag) :
      Halts group draft before (token :: rest)
        (.redefined tag.text none token)
  | incomplete
      {token : Token}
      {rest : List Token}
      {subject : Option Token}
      (hCloses : token.closes group.closeTag.text)
      (hMissing : group.missing draft ≠ [])
      (hSubject : group.subject draft = .ok subject) :
      Halts group draft before (token :: rest)
        (.incomplete (group.missing draft) subject token)
  | stray
      {token : Token}
      {rest : List Token}
      (hStray : group.read token = .stray) :
      Halts group draft before (token :: rest)
        (.unexpected token)

/-
  A production inside its path fails at a place. A section
  fails on its own behind the pieces that it takes in, or by a
  child that it may take in next.
-/
inductive Production.Fails :
    Production → List String → Cursor → Failure → Prop
  | leaf
      {leaf : Leaf}
      {path : List String}
      {cursor : Cursor}
      {cause : Cause}
      (hHalts : leaf.Halts cursor.before cursor.rest cause) :
      Fails (.ofLeaf leaf) path cursor
        ((Production.ofLeaf leaf).failure path cause)
  | group
      {group : Section}
      {path : List String}
      {cursor place : Cursor}
      {pieces : List Piece}
      {cause : Cause}
      (hFits : ∀ piece ∈ pieces, piece.Fits group)
      (hOnce : group.SetsOnce (.ofPieces pieces))
      (hCovers :
        Cursor.Covers cursor.before cursor.rest
          (pieces.flatMap Piece.tokens) place)
      (hHalts :
        group.Halts (.ofPieces pieces) place.before place.rest
          cause) :
      Fails (.ofSection group) path cursor
        ((Production.ofSection group).failure path cause)
  | child
      {group : Section}
      {path : List String}
      {cursor place : Cursor}
      {pieces : List Piece}
      {token : Token}
      {tag : Tag}
      {child : Child}
      {failure : Failure}
      (hFits : ∀ piece ∈ pieces, piece.Fits group)
      (hOnce : group.SetsOnce (.ofPieces pieces))
      (hCovers :
        Cursor.Covers cursor.before cursor.rest
          (pieces.flatMap Piece.tokens ++ [token]) place)
      (hOpens : token.opens tag.text)
      (hChild : group.child? tag = some child)
      (hFree : group.prior? (.ofPieces pieces) child = none)
      (hInside :
        Fails child.production (group.id :: path) place
          failure) :
      Fails (.ofSection group) path cursor failure

------------------------------------------------------------
-- Leaves
------------------------------------------------------------

namespace Leaf

/-
  A leaf that is not read is stopped. The induction is on the
  tokens that are left; the code read so far is content.
-/
theorem halts_of_parse
    {leaf : Leaf}
    {path : List String}
    {start code : List Token}
    {rest : List Token}
    {fault : Fault}
    (hContent : Code.IsContent code)
    (hParse :
      leaf.parse path code (code.reverse ++ start) rest =
        .error fault) :
    ∃ cause,
      leaf.Halts start (code ++ rest) cause ∧
        fault =
          .rejected
            ((Production.ofLeaf leaf).failure path cause) := by
  induction rest generalizing code with
  | nil =>
      cases hParse
      refine ⟨_, ?_, rfl⟩
      rw [List.append_nil]
      exact .endOfInput hContent
  | cons token rest ih =>
      rw [parse_cons] at hParse
      split at hParse
      · rename_i hCloses
        split at hParse
        · rename_i complaint hBuild
          cases hParse
          exact ⟨_, .malformed hContent hCloses hBuild, rfl⟩
        · cases hParse
      · rename_i hOpen
        split at hParse
        · rename_i hToken
          have hMore : Code.IsContent (code ++ [token]) := by
            intro other hOther
            rcases List.mem_append.mp hOther with hOld | hNew
            · exact hContent other hOld
            · rw [List.mem_singleton.mp hNew]
              simpa [Token.isContent] using hToken
          have hNext := ih hMore
          simp only [List.reverse_append,
            List.reverse_singleton, List.cons_append,
            List.append_assoc] at hNext
          exact hNext hParse
        · rename_i hOther
          cases hParse
          exact ⟨_, .unexpected hContent (by simpa using hOther)
            (by simpa using hOpen), rfl⟩

end Leaf

/-
  A production that is not read fails, when the sections that
  are read from the same place do.
-/
theorem Production.fails_of_sections
    {production : Production}
    {path : List String}
    {cursor : Cursor}
    {fault : Fault}
    (hSections :
      ∀ group : Section,
        group.parse path .empty cursor.before cursor.rest =
            .error fault →
          ∃ failure,
            fault = .rejected failure ∧
              (ofSection group).Fails path cursor failure)
    (hParse : production.parse path cursor = .error fault) :
    ∃ failure,
      fault = .rejected failure ∧
        production.Fails path cursor failure := by
  cases production with
  | ofLeaf leaf =>
      rw [parse_ofLeaf] at hParse
      have hNone : Code.IsContent ([] : Code) := by
        intro token hToken
        cases hToken
      rcases Leaf.halts_of_parse hNone hParse with
        ⟨cause, hHalts, rfl⟩
      exact ⟨_, rfl, .leaf hHalts⟩
  | ofSection group =>
      rw [parse_ofSection] at hParse
      exact hSections group hParse

------------------------------------------------------------
-- Sections
------------------------------------------------------------

/- The value that a field has was given to it. -/
theorem Draft.mem_values_of_value?
    {draft : Draft}
    {group : Section}
    {field : Field}
    {value : Fragment}
    (hValue : draft.value? group field = some value) :
    value ∈ draft.values group field := by
  rcases Option.bind_eq_some_iff.mp hValue with
    ⟨last, hLast, hSome⟩
  have hSame : last = value := by
    cases last <;> cases hSome <;> rfl
  subst hSame
  exact List.mem_of_getLast? hLast

namespace Section

/- What a typed draft is called by is a token. -/
theorem exists_subject
    {group : Section}
    {draft : Draft}
    (hTyped : group.IsTyped draft) :
    ∃ subject, group.subject draft = .ok subject := by
  have hToken :
      ∀ field ∈ group.subjectField?, ∀ value,
        field.fits group value = value.token?.isSome := by
    cases group <;> rintro field ⟨⟩ value <;> rfl
  unfold subject
  cases hField : group.subjectField? with
  | none => exact ⟨none, rfl⟩
  | some field =>
      simp only [Option.bind_some]
      cases hValue : draft.value? group field with
      | none => exact ⟨none, rfl⟩
      | some value =>
          have hFits :=
            hTyped.fits (Draft.mem_values_of_value? hValue)
          rw [hToken field hField] at hFits
          cases value <;> cases hFits
          exact ⟨_, rfl⟩

/- A section that is not closed misses something. -/
theorem close_eq_error
    {group : Section}
    {draft : Draft}
    (hTyped : group.IsTyped draft)
    (hOnce : group.SetsOnce draft)
    {path : List String}
    {token : Token}
    {fault : Fault}
    (hClose : group.close path draft token = .error fault) :
    group.missing draft ≠ [] ∧
      ∃ subject,
        group.subject draft = .ok subject ∧
          fault =
            .rejected
              ((Production.ofSection group).failure path
                (.incomplete (group.missing draft) subject
                  token)) := by
  have hMissing : group.missing draft ≠ [] := by
    intro hNone
    rcases exists_forms hTyped hOnce hNone with
      ⟨fragment, hForms⟩
    rw [close_of_forms hForms] at hClose
    cases hClose
  rcases exists_subject hTyped with ⟨subject, hSubject⟩
  refine ⟨hMissing, subject, hSubject, ?_⟩
  rw [close] at hClose
  split at hClose
  · contradiction
  · simp only [hSubject] at hClose
    cases hClose
    rfl

/-
  A section that is not read fails behind the pieces that were
  read before and those that are found. The induction is on the
  tokens that are left, since a child takes some of them.
-/
theorem fails_of_parse
    {group : Section}
    {path : List String}
    {pieces : List Piece}
    {cursor : Cursor}
    {before rest : List Token}
    {fault : Fault}
    (hFits : ∀ piece ∈ pieces, piece.Fits group)
    (hOnce : group.SetsOnce (.ofPieces pieces))
    (hCovers :
      Cursor.Covers cursor.before cursor.rest
        (pieces.flatMap Piece.tokens) ⟨before, rest⟩)
    (hParse :
      group.parse path (.ofPieces pieces) before rest =
        .error fault) :
    ∃ failure,
      fault = .rejected failure ∧
        (Production.ofSection group).Fails path cursor
          failure := by
  induction hLength : rest.length using Nat.strongRecOn
    generalizing group path pieces cursor before rest fault with
  | ind length ih =>
  cases rest with
  | nil =>
      rw [parse_nil] at hParse
      cases hParse
      exact ⟨_, rfl, .group hFits hOnce hCovers .endOfInput⟩
  | cons token rest =>
      subst hLength
      have hTyped := isTyped_ofPieces hFits
      rw [parse_cons] at hParse
      cases hRead : group.read token with
      | close =>
          have hCloses := read_eq_close_iff.mp hRead
          simp only [hRead] at hParse
          cases hClose :
              group.close path (.ofPieces pieces) token with
          | ok found => simp [hClose, Except.map] at hParse
          | error found =>
              simp only [hClose, Except.map] at hParse
              cases hParse
              rcases close_eq_error hTyped hOnce hClose with
                ⟨hMissing, subject, hSubject, rfl⟩
              exact ⟨_, rfl, .group hFits hOnce hCovers
                (.incomplete hCloses hMissing hSubject)⟩
      | opening tag child =>
          rcases read_eq_opening_iff.mp hRead with
            ⟨hOpens, hChild⟩
          simp only [hRead] at hParse
          split at hParse
          · rename_i prior hPrior
            cases hParse
            exact ⟨_, rfl, .group hFits hOnce hCovers
              (.child hOpens hChild hPrior)⟩
          · rename_i hFree
            have hOpened :
                Cursor.Covers cursor.before cursor.rest
                  (pieces.flatMap Piece.tokens ++ [token])
                  ⟨token :: before, rest⟩ :=
              hCovers.trans ⟨rfl, rfl⟩
            cases hInner : child.production.parse
                (group.id :: path)
                ⟨token :: before, rest⟩ with
            | error found =>
                simp only [hInner, Except.bind] at hParse
                cases hParse
                rcases Production.fails_of_sections
                    (fun inner hFound =>
                      ih rest.length (Nat.lt_succ_self _)
                        inner.fits_nil inner.setsOnce_empty
                        ⟨rfl, rfl⟩ hFound rfl)
                    hInner with
                  ⟨failure, rfl, hFails⟩
                exact ⟨failure, rfl, .child hFits hOnce hOpened
                  hOpens hChild hFree hFails⟩
            | ok found =>
                rcases found with ⟨part, later⟩
                simp only [hInner, Except.bind] at hParse
                rcases Production.derives_of_parse hInner with
                  ⟨inside, hInside, hDerives⟩
                let piece : Piece :=
                  .child token inside tag part
                have hPiece : piece.Fits group :=
                  .child hOpens hChild hDerives
                have hWithin :
                    later.rest.length < rest.length :=
                  Yield.within_of_toPair hInner
                have hDraft :
                    Draft.ofPieces (pieces ++ [piece]) =
                      (Draft.ofPieces pieces).add
                        (.child tag part) :=
                  Draft.ofPieces_concat pieces rfl
                have hMore :=
                  hOnce.add_child hTyped hChild hFree part
                rw [← hDraft] at hParse hMore
                refine ih later.rest.length
                  (Nat.lt_succ_of_lt hWithin)
                  (Piece.fits_concat hFits hPiece) hMore ?_
                  hParse rfl
                simpa [piece, Piece.tokens] using
                  hOpened.trans hInside
      | mark tag =>
          rcases read_eq_mark_iff.mp hRead with ⟨hMarks, hMark⟩
          simp only [hRead] at hParse
          split at hParse
          · rename_i hSet
            cases hParse
            exact ⟨_, rfl, .group hFits hOnce hCovers
              (.mark hMarks hMark hSet)⟩
          · rename_i hMarked
            let piece : Piece := .mark token tag
            have hPiece : piece.Fits group :=
              .mark hMarks hMark
            have hDraft :
                Draft.ofPieces (pieces ++ [piece]) =
                  (Draft.ofPieces pieces).add (.mark tag) :=
              Draft.ofPieces_concat pieces rfl
            have hMore :=
              hOnce.add_mark (Bool.eq_false_iff.mpr hMarked)
            rw [← hDraft] at hParse hMore
            refine ih rest.length (Nat.lt_succ_self _)
              (Piece.fits_concat hFits hPiece) hMore ?_ hParse
              rfl
            rw [List.flatMap_append]
            exact hCovers.trans ⟨rfl, rfl⟩
      | stray =>
          simp only [hRead] at hParse
          cases hParse
          exact ⟨_, rfl, .group hFits hOnce hCovers
            (.stray hRead)⟩

end Section

/- A production that is not read fails. -/
theorem Production.fails_of_parse
    {production : Production}
    {path : List String}
    {cursor : Cursor}
    {fault : Fault}
    (hParse : production.parse path cursor = .error fault) :
    ∃ failure,
      fault = .rejected failure ∧
        production.Fails path cursor failure :=
  fails_of_sections
    (fun group hFound =>
      Section.fails_of_parse group.fits_nil
        group.setsOnce_empty ⟨rfl, rfl⟩ hFound)
    hParse

------------------------------------------------------------
-- Whole Traits
------------------------------------------------------------

namespace TraitDecl

/-
  Why tokens declare no trait: there are none, the first one is
  not the opening tag, the trait section fails, or something
  stands behind it.
-/
inductive Refused : List Token → Failure → Prop
  | nothing
      {message : String}
      {failure : Failure}
      (hFault : .rejected failure = outside message none) :
      Refused [] failure
  | noTrait
      {token : Token}
      {rest : List Token}
      {message : String}
      {failure : Failure}
      (hOther : token.opens "trait" = false)
      (hFault :
        .rejected failure = outside message (some token)) :
      Refused (token :: rest) failure
  | inside
      {opener : Token}
      {rest : List Token}
      {failure : Failure}
      (hOpens : opener.opens "trait")
      (hFails :
        (Production.ofSection .trait).Fails []
          ⟨[opener], rest⟩ failure) :
      Refused (opener :: rest) failure
  | extraneous
      {opener token : Token}
      {inside rest : List Token}
      {fragment : Fragment}
      {message : String}
      {failure : Failure}
      (hOpens : opener.opens "trait")
      (hDerives :
        (Production.ofSection .trait).Derives inside fragment)
      (hFault :
        .rejected failure = outside message (some token)) :
      Refused (opener :: (inside ++ token :: rest)) failure

/- What is not a trait is refused for one of these reasons. -/
theorem refused_of_ofTokens
    {tokens : List Token}
    {fault : Fault}
    (hTokens : ofTokens tokens = .error fault) :
    ∃ failure,
      fault = .rejected failure ∧ Refused tokens failure := by
  cases tokens with
  | nil =>
      cases hTokens
      exact ⟨_, rfl, .nothing rfl⟩
  | cons opener rest =>
      by_cases hOpens : opener.opens "trait" = true
      · rw [ofTokens_cons hOpens] at hTokens
        cases hParse : (Production.ofSection .trait).parse []
            ⟨[opener], rest⟩ with
        | error found =>
            rw [hParse] at hTokens
            cases hTokens
            rcases Production.fails_of_parse hParse with
              ⟨failure, rfl, hFails⟩
            exact ⟨failure, rfl, .inside hOpens hFails⟩
        | ok found =>
            rcases found with ⟨fragment, cursor⟩
            rcases Production.derives_of_parse hParse with
              ⟨inside, hCovers, hDerives⟩
            rw [hParse] at hTokens
            have hRest := hCovers.rest
            rcases cursor with ⟨before, tail⟩
            cases tail with
            | nil =>
                have hYields :=
                  Production.yields_of_derives hDerives
                cases fragment with
                | trait decl => cases hTokens
                | _ => cases hYields
            | cons token more =>
                cases hTokens
                rw [hRest]
                exact ⟨_, rfl,
                  .extraneous hOpens hDerives rfl⟩
      · have hOther : opener.opens "trait" = false := by
          simpa using hOpens
        have hElse :
            ¬ opener.opens Section.trait.closeTag.text :=
          hOpens
        rw [ofTokens, if_neg hElse] at hTokens
        cases hTokens
        exact ⟨_, rfl, .noTrait hOther rfl⟩

end TraitDecl

end TraitMarkup
