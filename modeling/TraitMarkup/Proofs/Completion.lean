import TraitMarkup.Proofs.Markup
import TraitMarkup.Proofs.Truncation

/-
  What is cut short can be completed.

  Whatever a section has taken in, the parts that it still has
  to have are given by children of their own, each in a field
  that is free. So an open section is completed from the inside
  out. Only a leaf that asks for a shape may hold code that no
  more code can mend.

  Key definitions include:
    * `Leaf.isStrict`
    * `Section.required`
    * `Section.Supplies`
    * `Production.Completable`

  Main declarations:
    * `Section.exists_completion`
    * `Production.exists_derives_required`
    * `Production.Fails.completes`
    * `Production.run_completable`
-/

namespace TraitMarkup

------------------------------------------------------------
-- Code That Can Be Mended
------------------------------------------------------------

namespace Leaf

/- The leaf asks for a single token or for a visibility. -/
def isStrict : Leaf → Bool
  | name | lifetime | lifetimeName | lifetimeBound | abi | vis =>
      true
  | type | ret | defaultValue | pat | rust | req | typeBound =>
      false

/- A token that any code may end with. -/
def filler : Token := { kind := .ident, text := "T" }

/- Code without tags that close something is content. -/
theorem isContent_filler :
    Code.IsContent [filler] := by
  simp [Code.IsContent, filler]

/- Every leaf has code that it holds. -/
theorem exists_holds
    (leaf : Leaf) :
    ∃ code fragment,
      Code.IsContent code ∧ leaf.Holds code fragment := by
  have hWord : Code.IsContent [{ filler with text := "pub" }] := by
    simp [Code.IsContent, filler]
  have hLifetime :
      Code.IsContent [{ filler with kind := .lifetime }] := by
    simp [Code.IsContent, filler]
  have hString :
      Code.IsContent [{ filler with kind := .string }] := by
    simp [Code.IsContent, filler]
  have hSome : [filler] ≠ [] := List.cons_ne_nil _ _
  have hPath :
      Code.SpellsBound [filler]
        { path := [filler], relaxed := false } := by
    refine .plain hSome ?_
    rintro ⟨mark, rest, hCode, hKind, _⟩
    cases hCode
    cases hKind
  cases leaf with
  | name => exact ⟨_, _, isContent_filler, .name rfl⟩
  | lifetime => exact ⟨_, _, hLifetime, .lifetime rfl⟩
  | lifetimeName => exact ⟨_, _, hLifetime, .lifetimeName rfl⟩
  | lifetimeBound => exact ⟨_, _, hLifetime, .lifetimeBound rfl⟩
  | abi => exact ⟨_, _, hString, .abi rfl⟩
  | vis => exact ⟨_, _, hWord, .vis (.plain ⟨rfl, rfl⟩)⟩
  | type => exact ⟨_, _, isContent_filler, .type hSome⟩
  | ret => exact ⟨_, _, isContent_filler, .ret hSome⟩
  | defaultValue =>
      exact ⟨_, _, isContent_filler, .defaultValue hSome⟩
  | pat => exact ⟨_, _, isContent_filler, .pat hSome⟩
  | rust => exact ⟨_, _, isContent_filler, .rust⟩
  | req => exact ⟨_, _, isContent_filler, .req hPath⟩
  | typeBound => exact ⟨_, _, isContent_filler, .typeBound hPath⟩

/- A bound is spelled by any code and one more token. -/
theorem exists_spellsBound
    (code : Code) :
    ∃ bound, Code.SpellsBound (code ++ [filler]) bound := by
  have hSome : code ++ [filler] ≠ [] := by simp
  by_cases hRelaxed : Code.StartsRelaxed (code ++ [filler])
  · rcases hRelaxed with ⟨mark, path, hCode, hMark⟩
    have hPath : path ≠ [] := by
      rintro rfl
      rcases List.append_eq_singleton_iff.mp hCode with
        ⟨_, hFiller⟩ | ⟨_, hNone⟩
      · cases hFiller
        cases hMark.1
      · cases hNone
    rw [hCode]
    exact ⟨_, .relaxed hMark hPath⟩
  · exact ⟨_, .plain hSome hRelaxed⟩

/- Code that a leaf need not check goes on to what it holds. -/
theorem exists_holds_append
    {leaf : Leaf}
    (hLoose : leaf.isStrict = false)
    (code : Code) :
    ∃ fragment, leaf.Holds (code ++ [filler]) fragment := by
  have hSome : code ++ [filler] ≠ [] := by simp
  rcases exists_spellsBound code with ⟨bound, hBound⟩
  cases leaf with
  | type => exact ⟨_, .type hSome⟩
  | ret => exact ⟨_, .ret hSome⟩
  | defaultValue => exact ⟨_, .defaultValue hSome⟩
  | pat => exact ⟨_, .pat hSome⟩
  | rust => exact ⟨_, .rust⟩
  | req => exact ⟨_, .req hBound⟩
  | typeBound => exact ⟨_, .typeBound hBound⟩
  | _ => cases hLoose

/-
  A leaf that need not check its code complains at its closing
  tag, or at a lone question mark in front of it.
-/
theorem token_of_build_error
    {leaf : Leaf}
    (hLoose : leaf.isStrict = false)
    {code : Code}
    {close : Token}
    {complaint : Malformed}
    (hBuild : leaf.build code close = .error complaint) :
    complaint.token = close ∨
      (code = [complaint.token] ∧
        complaint.token.kind = .punct ∧
        complaint.token.text = "?") := by
  cases code with
  | nil =>
      cases leaf <;> cases hLoose <;> cases hBuild <;>
        exact .inl rfl
  | cons first rest =>
      have hPath :
          buildPath first rest = .error complaint := by
        cases leaf <;> cases hLoose <;>
          first
          | exact hBuild
          | cases hBuild
      unfold buildPath at hPath
      split at hPath
      · rename_i hMark
        cases rest with
        | nil =>
            cases hPath
            exact .inr ⟨rfl, hMark⟩
        | cons second rest => cases hPath
      · cases hPath

end Leaf

------------------------------------------------------------
-- Parts That Are Still To Come
------------------------------------------------------------

namespace Section

/- A tag for every part that the section has to have. -/
def required : Section → List Tag
  | trait | lifetimeParam | typeParam | assocType | assocFn =>
      [.name]
  | bounds | params => []
  | gparams => [.lifetime]
  | constParam | assocConst | param => [.name, .type]
  | forBound => [.lifetime, .typeBound]
  | clauses => [.typeClause]
  | lifetimeClause => [.lifetime, .lifetimeBound]
  | typeClause => [.type]
  | forClause => [.lifetime, .typeClause]

/- The field that the tag fills has a value. -/
def Supplies
    (group : Section)
    (draft : Draft)
    (tag : Tag) : Prop :=
  ∃ child,
    group.child? tag = some child ∧
      draft.values group child.field ≠ []

/- What a draft supplies, it supplies with more in it. -/
theorem Supplies.append
    {group : Section}
    {pieces : List Piece}
    {tag : Tag}
    (hSupplies : group.Supplies (.ofPieces pieces) tag)
    (more : List Piece) :
    group.Supplies (.ofPieces (pieces ++ more)) tag := by
  rcases hSupplies with ⟨child, hChild, hValues⟩
  refine ⟨child, hChild, ?_⟩
  simp only [Draft.values, Draft.ofPieces, List.map_append,
    List.filterMap_append, ne_eq, List.append_eq_nil_iff,
    not_and]
  intro hNone
  exact absurd hNone hValues

/- A draft that supplies what is required misses nothing. -/
theorem missing_of_supplies
    {group : Section}
    {draft : Draft}
    (hTyped : group.IsTyped draft)
    (hSupplies :
      ∀ tag ∈ group.required, group.Supplies draft tag) :
    group.missing draft = [] := by
  have hAny :
      ∀ tag ∈ group.required, ∀ child,
        group.child? tag = some child →
          (draft.values group child.field).isEmpty = false := by
    intro tag hTag child hChild
    rcases hSupplies tag hTag with ⟨other, hOther, hValues⟩
    cases hChild.symm.trans hOther
    simpa using hValues
  have hHas :
      ∀ tag ∈ group.required, ∀ child,
        group.child? tag = some child →
          (draft.value? group child.field).isSome = true := by
    intro tag hTag child hChild
    by_contra hNone
    have hEmpty :=
      hTyped.values_eq_nil (by simpa using hNone)
    have hGiven := hAny tag hTag child hChild
    rw [hEmpty] at hGiven
    cases hGiven
  unfold missing
  cases group with
  | trait | lifetimeParam | typeParam | assocType | assocFn =>
      have hName := hHas .name (by simp [required]) _ rfl
      simp only [Child.once, Child.called] at hName
      simp only [askFor, hName, if_true]
  | bounds | params => rfl
  | gparams =>
      have hLifetimes := hAny .lifetime (by simp [required]) _ rfl
      simp only [Child.many] at hLifetimes
      simp [askFor, hLifetimes]
  | constParam | assocConst =>
      have hName := hHas .name (by simp [required]) _ rfl
      have hType := hHas .type (by simp [required]) _ rfl
      simp only [Child.once] at hName hType
      simp [askFor, hName, hType]
  | param =>
      have hArg := hHas .name (by simp [required]) _ rfl
      have hType := hHas .type (by simp [required]) _ rfl
      simp only [Child.once, Child.called, Child.taken]
        at hArg hType
      simp [askFor, hArg, hType]
  | forBound =>
      have hLifetimes := hAny .lifetime (by simp [required]) _ rfl
      have hBound := hHas .typeBound (by simp [required]) _ rfl
      simp only [Child.many, Child.once] at hLifetimes hBound
      simp [askFor, hLifetimes, hBound]
  | clauses =>
      have hClauses := hAny .typeClause (by simp [required]) _ rfl
      simp only [Child.many] at hClauses
      simp [askFor, hClauses]
  | lifetimeClause =>
      have hLifetime := hHas .lifetime (by simp [required]) _ rfl
      have hBounds :=
        hAny .lifetimeBound (by simp [required]) _ rfl
      simp only [Child.many, Child.once] at hLifetime hBounds
      simp [askFor, hLifetime, hBounds]
  | typeClause =>
      have hType := hHas .type (by simp [required]) _ rfl
      simp only [Child.once] at hType
      simp [askFor, hType]
  | forClause =>
      have hLifetimes := hAny .lifetime (by simp [required]) _ rfl
      have hClause := hHas .typeClause (by simp [required]) _ rfl
      simp only [Child.many, Child.once, Child.called]
        at hLifetimes hClause
      simp [askFor, hLifetimes, hClause]

/- A child for a field that is empty may be taken in. -/
theorem SetsOnce.concat_child
    {group : Section}
    {pieces : List Piece}
    (hOnce : group.SetsOnce (.ofPieces pieces))
    (hFits : ∀ piece ∈ pieces, piece.Fits group)
    {tag : Tag}
    {child : Child}
    (hChild : group.child? tag = some child)
    (hEmpty :
      (Draft.ofPieces pieces).values group child.field = [])
    (opener : Token)
    (inside : List Token)
    (fragment : Fragment) :
    group.SetsOnce
      (.ofPieces
        (pieces ++ [.child opener inside tag fragment])) := by
  have hFree : group.prior? (.ofPieces pieces) child = none := by
    simp [prior?, Draft.value?, hEmpty]
  rw [Draft.ofPieces_concat pieces rfl]
  exact hOnce.add_child (isTyped_ofPieces hFits) hChild hFree
    fragment

/-
  Pieces are gone on with until every tag is supplied. A tag
  whose field is filled adds nothing; any other adds one piece.
-/
theorem exists_supplies
    {group : Section}
    {tags : List Tag}
    (hTags :
      ∀ tag ∈ tags, ∃ child,
        group.child? tag = some child ∧
          ∃ inside fragment,
            child.production.Derives inside fragment)
    {pieces : List Piece}
    (hFits : ∀ piece ∈ pieces, piece.Fits group)
    (hOnce : group.SetsOnce (.ofPieces pieces)) :
    ∃ more,
      (∀ piece ∈ pieces ++ more, piece.Fits group) ∧
        group.SetsOnce (.ofPieces (pieces ++ more)) ∧
        ∀ tag ∈ tags,
          group.Supplies (.ofPieces (pieces ++ more)) tag := by
  induction tags generalizing pieces with
  | nil =>
      refine ⟨[], ?_, ?_, nofun⟩
      · rwa [List.append_nil]
      · rwa [List.append_nil]
  | cons tag tags ih =>
      have hRest := fun other hOther =>
        hTags other (List.mem_cons_of_mem tag hOther)
      rcases hTags tag List.mem_cons_self with
        ⟨child, hChild, inside, fragment, hDerives⟩
      by_cases hGiven : group.Supplies (.ofPieces pieces) tag
      · rcases ih hRest hFits hOnce with
          ⟨more, hAllFit, hAllOnce, hSupplies⟩
        exact ⟨more, hAllFit, hAllOnce,
          List.forall_mem_cons.mpr
            ⟨hGiven.append more, hSupplies⟩⟩
      · let piece : Piece :=
          .child tag.opening inside tag fragment
        have hPiece : piece.Fits group :=
          .child tag.opens_opening hChild hDerives
        have hEmpty :
            (Draft.ofPieces pieces).values group child.field =
              [] := by
          by_contra hValues
          exact hGiven ⟨child, hChild, hValues⟩
        have hMore :=
          hOnce.concat_child hFits hChild hEmpty tag.opening
            inside fragment
        have hSupplied :
            group.Supplies (.ofPieces (pieces ++ [piece]))
              tag := by
          refine ⟨child, hChild, ?_⟩
          rw [Draft.ofPieces_concat pieces rfl, Draft.values_add,
            hEmpty]
          simp [piece, Piece.entry, Entry.value?, hChild]
        rcases ih hRest (Piece.fits_concat hFits hPiece)
            hMore with
          ⟨more, hAllFit, hAllOnce, hSupplies⟩
        have hAll :
            pieces ++ piece :: more =
              pieces ++ [piece] ++ more := by
          simp
        refine ⟨piece :: more, ?_⟩
        rw [hAll]
        exact ⟨hAllFit, hAllOnce,
          List.forall_mem_cons.mpr
            ⟨hSupplied.append more, hSupplies⟩⟩

/-
  A section that has taken in pieces is completed, when the
  children that it has to have can be written.
-/
theorem exists_completion_of
    {group : Section}
    (hRequired :
      ∀ tag ∈ group.required, ∃ child,
        group.child? tag = some child ∧
          ∃ inside fragment,
            child.production.Derives inside fragment)
    {pieces : List Piece}
    (hFits : ∀ piece ∈ pieces, piece.Fits group)
    (hOnce : group.SetsOnce (.ofPieces pieces)) :
    ∃ more fragment,
      (Production.ofSection group).Derives
        (pieces.flatMap Piece.tokens ++ more) fragment := by
  rcases exists_supplies hRequired hFits hOnce with
    ⟨more, hAllFit, hAllOnce, hSupplies⟩
  have hTyped := isTyped_ofPieces hAllFit
  rcases exists_forms hTyped hAllOnce
      (missing_of_supplies hTyped hSupplies) with
    ⟨fragment, hForms⟩
  have hDerives :=
    Production.derives_of_fits hAllFit hAllOnce hForms
      group.closeTag.closes_closing
  rw [List.flatMap_append, List.append_assoc] at hDerives
  exact ⟨_, fragment, hDerives⟩

end Section

namespace Production

/- Every leaf can be written. -/
theorem exists_derives_leaf
    (leaf : Leaf) :
    ∃ tokens fragment,
      (ofLeaf leaf).Derives tokens fragment := by
  rcases leaf.exists_holds with
    ⟨code, fragment, hContent, hHolds⟩
  exact ⟨_, fragment,
    .leaf hContent hHolds leaf.closeTag.closes_closing⟩

/-
  The children that a section has to have can be written. They
  are leaves, or one of two sections that only ask for leaves.
-/
theorem exists_derives_required
    (group : Section) :
    ∀ tag ∈ group.required, ∃ child,
      group.child? tag = some child ∧
        ∃ inside fragment,
          child.production.Derives inside fragment := by
  have hLeaf := exists_derives_leaf
  have hSection :
      ∀ inner : Section,
        (∀ tag ∈ inner.required, ∃ child,
          inner.child? tag = some child ∧
            ∃ inside fragment,
              child.production.Derives inside fragment) →
          ∃ inside fragment,
            (ofSection inner).Derives inside fragment := by
    intro inner hRequired
    exact Section.exists_completion_of hRequired inner.fits_nil
      inner.setsOnce_empty
  have hTypeClause :=
    hSection .typeClause
      (List.forall_mem_singleton.mpr ⟨_, rfl, hLeaf .type⟩)
  have hLifetimeParam :=
    hSection .lifetimeParam
      (List.forall_mem_singleton.mpr
        ⟨_, rfl, hLeaf .lifetimeName⟩)
  cases group with
  | trait | lifetimeParam | typeParam | typeClause | assocType
    | assocFn =>
      exact List.forall_mem_singleton.mpr ⟨_, rfl, hLeaf _⟩
  | bounds | params => exact nofun
  | gparams =>
      exact List.forall_mem_singleton.mpr
        ⟨_, rfl, hLifetimeParam⟩
  | clauses =>
      exact List.forall_mem_singleton.mpr
        ⟨_, rfl, hTypeClause⟩
  | constParam | forBound | lifetimeClause | assocConst
    | param =>
      exact List.forall_mem_cons.mpr
        ⟨⟨_, rfl, hLeaf _⟩,
          List.forall_mem_singleton.mpr ⟨_, rfl, hLeaf _⟩⟩
  | forClause =>
      exact List.forall_mem_cons.mpr
        ⟨⟨_, rfl, hLeaf _⟩,
          List.forall_mem_singleton.mpr
            ⟨_, rfl, hTypeClause⟩⟩

end Production

/- A section that has taken in pieces can be completed. -/
theorem Section.exists_completion
    {group : Section}
    {pieces : List Piece}
    (hFits : ∀ piece ∈ pieces, piece.Fits group)
    (hOnce : group.SetsOnce (.ofPieces pieces)) :
    ∃ more fragment,
      (Production.ofSection group).Derives
        (pieces.flatMap Piece.tokens ++ more) fragment :=
  exists_completion_of
    (Production.exists_derives_required group) hFits hOnce

------------------------------------------------------------
-- Completing What Is Cut Short
------------------------------------------------------------

namespace Production

/- The production is a leaf that asks for a shape. -/
def isStrict : Production → Bool
  | ofLeaf leaf => leaf.isStrict
  | ofSection _ => false

/- In a leaf, the leaf is the innermost open production. -/
theorem InLeaf.openAfter_eq
    {production : Production}
    {tokens : List Token}
    {leaf : Leaf}
    {code : Code}
    (hInLeaf : production.InLeaf tokens leaf code) :
    ∃ outer,
      production.openAfter tokens = ofLeaf leaf :: outer := by
  rcases hInLeaf with ⟨head, outer, rfl, hContent, hOpen⟩
  refine ⟨outer, ?_⟩
  rw [openAfter, List.foldl_append, ← openAfter, hOpen]
  exact foldl_track_content leaf hContent outer

/-
  What is cut short can be completed, unless a strict leaf has
  read some code. The induction is on the sections around the
  end: what completes a child is followed by what completes the
  section around it.
-/
theorem Fails.completes
    {production : Production}
    {path : List String}
    {cursor : Cursor}
    {failure : Failure}
    (hFails : production.Fails path cursor failure)
    (hCut : failure.IsCutShort) :
    (∃ more fragment,
      production.Derives (cursor.rest ++ more) fragment) ∨
    (∃ leaf code,
      leaf.isStrict = true ∧
        code ≠ [] ∧
        production.InLeaf cursor.rest leaf code) := by
  induction hFails with
  | @leaf leaf path cursor cause hHalts =>
      rcases endOfInput_of_isCutShort hCut with ⟨last, rfl⟩
      rcases cursor with ⟨before, code⟩
      cases hHalts with
      | endOfInput hContent =>
          cases hStrict : leaf.isStrict with
          | false =>
              rcases Leaf.exists_holds_append hStrict code with
                ⟨fragment, hHolds⟩
              have hAll :
                  Code.IsContent (code ++ [Leaf.filler]) :=
                List.forall_mem_append.mpr
                  ⟨hContent, Leaf.isContent_filler⟩
              have hDerives :=
                Derives.leaf hAll hHolds
                  leaf.closeTag.closes_closing
              rw [List.append_assoc] at hDerives
              exact .inl ⟨_, fragment, hDerives⟩
          | true =>
              by_cases hCode : code = []
              · subst hCode
                exact .inl (exists_derives_leaf leaf)
              · exact .inr ⟨leaf, code, hStrict, hCode,
                  [], [], rfl, hContent, rfl⟩
  | @group group path cursor place pieces cause hFits hOnce
      hCovers hHalts =>
      rcases endOfInput_of_isCutShort hCut with ⟨last, rfl⟩
      rcases place with ⟨before, rest⟩
      cases hHalts
      left
      rw [hCovers.rest, List.append_nil]
      exact Section.exists_completion hFits hOnce
  | @child group path cursor place pieces opener tag child
      failure hFits hOnce hCovers hOpens hChild hFree hInside
      ih =>
      have hRest :
          cursor.rest =
            pieces.flatMap Piece.tokens ++
              opener :: place.rest := by
        rw [hCovers.rest, List.append_assoc,
          List.singleton_append]
      rw [hRest]
      rcases ih hCut with
        ⟨more, part, hDerives⟩ |
          ⟨leaf, code, hStrict, hCode, hInLeaf⟩
      · let piece : Piece :=
          .child opener (place.rest ++ more) tag part
        have hPiece : piece.Fits group :=
          .child hOpens hChild hDerives
        have hDraft :
            Draft.ofPieces (pieces ++ [piece]) =
              (Draft.ofPieces pieces).add (.child tag part) :=
          Draft.ofPieces_concat pieces rfl
        have hMore :=
          hOnce.add_child (Section.isTyped_ofPieces hFits)
            hChild hFree part
        rw [← hDraft] at hMore
        rcases Section.exists_completion
            (Piece.fits_concat hFits hPiece) hMore with
          ⟨later, fragment, hWhole⟩
        refine .inl ⟨more ++ later, fragment, ?_⟩
        simpa [piece, Piece.tokens] using hWhole
      · exact .inr ⟨leaf, code, hStrict, hCode,
          hInLeaf.of_child hFits hOpens hChild⟩

/- Productions that messages call the same are the same. -/
theorem eq_of_rule_eq
    {left right : Production}
    (hRule : left.rule = right.rule) :
    left = right := by
  have hFind :
      ∀ production : Production,
        all.find? (fun other => other.rule = production.rule) =
          some production := by
    intro production
    rcases production with leaf | group
    · cases leaf <;> rfl
    · cases group <;> rfl
  have hFound := hFind left
  rw [hRule, hFind right] at hFound
  exact (Option.some.inj hFound).symm

end Production

------------------------------------------------------------
-- Runs That Are Cut Short
------------------------------------------------------------

/-
  The failure names the token behind those that were read, or a
  question mark in front of it that it leaves without a path.
  This is only about the token that is named: the question mark
  by itself is read without a failure, and the refusal comes
  when the token behind it is read.
-/
def Failure.IsAt
    (failure : Failure)
    (tokens : List Token)
    (token : Token) : Prop :=
  failure.token = some token ∨
    ∃ mark,
      tokens.getLast? = some mark ∧
        mark.kind = .punct ∧
        mark.text = "?" ∧
        failure.token = some mark

namespace Production

/- The tokens are the start of a stream that is read in full. -/
def Completable
    (production : Production)
    (tokens : List Token) : Prop :=
  ∃ more fragment,
    run production.id (tokens ++ more) = .ok (fragment, [])

variable {production : Production}
variable {tokens : List Token}

/- To be completable is to start a derivation. -/
theorem completable_iff :
    production.Completable tokens ↔
      ∃ more fragment,
        production.Derives (tokens ++ more) fragment := by
  simp [Completable, run_eq_ok_iff]

/- A run that is cut short outside a strict leaf goes on. -/
theorem completable_of_cutShort
    {inner : Production}
    {callers : List String}
    {last : Option Token}
    (hRun :
      run production.id tokens =
        .error (.rejected (inner.cutShort callers last)))
    (hLoose : inner.isStrict = false) :
    production.Completable tokens := by
  have hCut : (inner.cutShort callers last).IsCutShort :=
    ⟨inner, callers, last, rfl⟩
  rcases fails_of_run hRun with ⟨failure, hSame, hFails⟩
  cases hSame
  rcases hFails.completes hCut with
    hCompletes | ⟨leaf, code, hStrict, _, hInLeaf⟩
  · exact completable_iff.mpr hCompletes
  · -- The strict leaf would be the one that reports the end.
    rcases hInLeaf.openAfter_eq with ⟨around, hLeaf⟩
    rcases hFails.cutShort_eq hCut with
      ⟨found, outer, hOpen, hFailure⟩
    cases hOpen.symm.trans hLeaf
    have hReporter : inner = ofLeaf leaf :=
      eq_of_rule_eq (congrArg Failure.rule hFailure)
    rw [hReporter, isStrict, hStrict] at hLoose
    cases hLoose

/-
  A token outside a strict leaf, behind which the stream is cut
  short, leaves it completable.
-/
theorem completable_concat_of_cutShort
    {token : Token}
    {inner : Production}
    {outer : List Production}
    (hOpen : production.openAfter tokens = inner :: outer)
    (hLoose : inner.isStrict = false)
    {failure : Failure}
    (hFails :
      production.Fails [] ⟨[], tokens ++ [token]⟩ failure)
    (hCut : failure.IsCutShort) :
    production.Completable (tokens ++ [token]) := by
  rcases hFails.completes hCut with
    hCompletes |
      ⟨leaf, code, hStrict, hCode, head, around, hTokens,
        hContent, hHead⟩
  · exact completable_iff.mpr hCompletes
  · -- The leaf was open before the token, which is in its code.
    rcases List.eq_nil_or_concat code with
      hNone | ⟨start, final, rfl⟩
    · exact absurd hNone hCode
    · rw [List.concat_eq_append] at hTokens hContent
      rw [← List.append_assoc] at hTokens
      have hStart := (List.append_inj' hTokens rfl).1
      have hInLeaf : production.InLeaf tokens leaf start :=
        ⟨head, around, hStart,
          (List.forall_mem_append.mp hContent).1, hHead⟩
      rcases hInLeaf.openAfter_eq with ⟨_, hLeaf⟩
      cases hOpen.symm.trans hLeaf
      rw [isStrict, hStrict] at hLoose
      cases hLoose

/- Outside a strict leaf a failure is where it is found. -/
theorem Blames.isAt
    {token : Token}
    {failure : Failure}
    (hBlames : production.Blames tokens token failure)
    {inner : Production}
    {outer : List Production}
    (hOpen : production.openAfter tokens = inner :: outer)
    (hLoose : inner.isStrict = false) :
    failure.IsAt tokens token := by
  cases hBlames with
  | token hToken => exact .inl hToken
  | code hInLeaf hBuild hToken =>
      rcases hInLeaf.openAfter_eq with ⟨_, hLeaf⟩
      cases hOpen.symm.trans hLeaf
      rcases Leaf.token_of_build_error hLoose hBuild with
        hClose | ⟨hCode, hKind, hText⟩
      · rw [hClose] at hToken
        exact .inl hToken
      · rcases hInLeaf with ⟨head, _, hTokens, _, _⟩
        refine .inr ⟨_, ?_, hKind, hText, hToken⟩
        rw [hTokens, hCode, List.getLast?_concat]

/-
  A token that leaves nothing to complete is refused at once,
  whatever follows it.
-/
theorem rejected_of_not_completable
    {token : Token}
    {inner : Production}
    {outer : List Production}
    (hOpen : production.openAfter tokens = inner :: outer)
    (hLoose : inner.isStrict = false)
    (hStart : production.Completable tokens)
    (hDoomed : ¬ production.Completable (tokens ++ [token])) :
    ∃ failure : Failure,
      ¬ failure.IsCutShort ∧
        failure.IsAt tokens token ∧
        ∀ more,
          run production.id (tokens ++ token :: more) =
            .error (.rejected failure) := by
  cases hRun : run production.id (tokens ++ [token]) with
  | ok found =>
      rcases found with ⟨fragment, rest⟩
      rcases run_eq_ok_iff.mp hRun with
        ⟨inside, hTokens, hDerives⟩
      rcases List.eq_nil_or_concat rest with
        rfl | ⟨start, final, rfl⟩
      · exact absurd ⟨[], fragment, by simpa using hRun⟩ hDoomed
      · rw [List.concat_eq_append, ← List.append_assoc]
          at hTokens
        have hEarlier :=
          run_eq_ok_iff.mpr
            ⟨inside, (List.append_inj' hTokens rfl).1,
              hDerives⟩
        rw [openAfter_of_run hEarlier] at hOpen
        cases hOpen
  | error fault =>
      rcases fails_of_run hRun with ⟨failure, rfl, hFails⟩
      have hOther : ¬ failure.IsCutShort :=
        fun hCut =>
          hDoomed
            (completable_concat_of_cutShort hOpen hLoose hFails
              hCut)
      rcases hFails.decided hOther with
        ⟨seen, found, after, hTokens, hBlames, hParse⟩
      dsimp only at hTokens hParse
      rcases List.eq_nil_or_concat after with
        rfl | ⟨start, final, rfl⟩
      · have hLast := List.append_inj' hTokens rfl
        cases hLast.1
        cases hLast.2
        exact ⟨failure, hOther, hBlames.isAt hOpen hLoose,
          fun more => run_eq_error_iff.mpr (hParse more)⟩
      · -- The failure would be decided before the token.
        rcases hStart with ⟨more, fragment, hWhole⟩
        rw [List.concat_eq_append, ← List.cons_append,
          ← List.append_assoc] at hTokens
        rw [(List.append_inj' hTokens rfl).1,
          List.append_assoc, List.cons_append,
          run_eq_error_iff.mpr (hParse (start ++ more))]
          at hWhole
        cases hWhole

/-
  Tokens that end too early can be gone on with. Where the end
  is reported by a section, or by a leaf that takes any code,
  there are tokens that complete the stream. So outside the
  strict leaves a token that leaves nothing to complete is
  refused when it is read and not at the end: whatever follows,
  the failure is the same. It names that token, or a question
  mark right in front of it.
-/
theorem run_completable
    (production : Production)
    (tokens : List Token) :
    (∀ (inner : Production)
        (callers : List String)
        (last : Option Token),
      run production.id tokens =
          .error (.rejected (inner.cutShort callers last)) →
        inner.isStrict = false →
          ∃ more fragment,
            run production.id (tokens ++ more) =
              .ok (fragment, [])) ∧
    (∀ token inner outer,
      production.openAfter tokens = inner :: outer →
        inner.isStrict = false →
          production.Completable tokens →
            ¬ production.Completable (tokens ++ [token]) →
              ∃ failure : Failure,
                ¬ failure.IsCutShort ∧
                  failure.IsAt tokens token ∧
                  ∀ more,
                    run production.id
                        (tokens ++ token :: more) =
                      .error (.rejected failure)) := by
  constructor
  · intro inner callers last hRun hLoose
    exact completable_of_cutShort hRun hLoose
  · intro token inner outer hOpen hLoose hStart hDoomed
    exact rejected_of_not_completable hOpen hLoose hStart
      hDoomed

/-
  A trait that is cut off inside the body of a function can be
  completed. It cannot be any more when the trait is closed
  there, and this is refused at the closing tag.
-/
theorem run_completable_body :
    let fnTag : Token := .ofOpenTag "assocfn"
    let rustTag : Token := .ofOpenTag "rust"
    let brace : Token := ⟨.punct, "\x7b", true, {}⟩
    let close : Token := .ofCloseTag "trait"
    let start : List Token := [fnTag, rustTag, brace]
    (run "trait" start =
        .error (.rejected
          ((ofLeaf .rust).cutShort ["assocfn", "trait"]
            (some brace))) ∧
      ∃ more fragment,
        run "trait" (start ++ more) = .ok (fragment, [])) ∧
    ∃ failure : Failure,
      failure.token = some close ∧
        ∀ more,
          run "trait" (start ++ close :: more) =
            .error (.rejected failure) := by
  intro fnTag rustTag brace close start
  have hEnd :
      run (ofSection .trait).id start =
        .error (.rejected
          ((ofLeaf .rust).cutShort ["assocfn", "trait"]
            (some brace))) := by
    decide +kernel
  have hStop :
      run (ofSection .trait).id (start ++ [close]) =
        .error (.rejected
          ((ofLeaf .rust).failure ["assocfn", "trait"]
            (.unexpected close))) := by
    decide +kernel
  have hDoomed :
      ¬ (ofSection .trait).Completable (start ++ [close]) := by
    rintro ⟨more, fragment, hWhole⟩
    have hOther :
        ¬ (Fault.rejected
          ((ofLeaf .rust).failure ["assocfn", "trait"]
            (.unexpected close))).IsCutShort := by
      rintro ⟨_, hSame, _, _, _, rfl⟩
      cases congrArg Failure.token (Fault.rejected.inj hSame)
    rw [run_append_of_error hStop hOther more] at hWhole
    cases hWhole
  have hOpen :
      (ofSection .trait).openAfter start =
        [ofLeaf .rust, ofSection .assocFn,
          ofSection .trait] := by
    decide
  rcases run_completable (ofSection .trait) start with
    ⟨hCompletes, hRefused⟩
  have hMore := hCompletes _ _ _ hEnd rfl
  rcases hRefused close _ _ hOpen rfl hMore hDoomed with
    ⟨failure, _, hAt, hRuns⟩
  refine ⟨⟨hEnd, hMore⟩, failure, ?_, hRuns⟩
  rcases hAt with hToken | ⟨mark, hLast, _, hText, _⟩
  · exact hToken
  · cases hLast
    exact absurd hText (by decide)

end Production

end TraitMarkup
