import TraitMarkup.Proofs.Refusal

/-
  What the tokens read so far decide.

  Reading never looks past the token at which it ends. A
  production that is read, or that fails at a token, does the
  same whatever follows. Only the end of the tokens is open: it
  is reported by the innermost production that the tokens have
  opened and not closed.

  Key definitions include:
    * `Production.cutShort`
    * `Production.openAfter`
    * `Production.InLeaf`
    * `Production.Blames`

  Main declarations:
    * `Production.foldl_track_of_derives`
    * `Production.Fails.decided`
    * `Production.Fails.cutShort_eq`
    * `Production.run_truncation`
-/

namespace TraitMarkup

------------------------------------------------------------
-- Tokens That End Too Early
------------------------------------------------------------

/-
  The failure of a production whose tokens end before its
  closing tag. It is at no token, but at the place of the last
  one.
-/
def Production.cutShort
    (production : Production)
    (callers : List String)
    (last : Option Token) :
    Failure where
  kind := .structural
  message :=
    "error parsing " ++ production.rule ++ ": "
      ++ ("ran out of tokens before `</"
        ++ production.closeTag.text ++ ">`")
      ++ callerText callers
  rule := production.rule
  token := none
  span := Failure.spanOf last
  callers := callers

/- The failure says that the tokens end too early. -/
def Failure.IsCutShort
    (failure : Failure) : Prop :=
  ∃ production callers last,
    failure = Production.cutShort production callers last

/- The fault is that the tokens end too early. -/
def Fault.IsCutShort
    (fault : Fault) : Prop :=
  ∃ failure : Failure,
    fault = .rejected failure ∧ failure.IsCutShort

namespace Production

/- An early end is the cause of such a failure. -/
theorem failure_endOfInput
    (production : Production)
    (callers : List String)
    (last : Option Token) :
    production.failure callers (.endOfInput last) =
      production.cutShort callers last :=
  rfl

/- No other cause makes such a failure. -/
theorem endOfInput_of_isCutShort
    {production : Production}
    {callers : List String}
    {cause : Cause}
    (hCut : (production.failure callers cause).IsCutShort) :
    ∃ last, cause = .endOfInput last := by
  rcases hCut with ⟨other, path, last, hSame⟩
  have hToken := congrArg Failure.token hSame
  cases cause with
  | endOfInput last => exact ⟨last, rfl⟩
  | unexpected => cases hToken
  | redefined => cases hToken
  | incomplete => cases hToken
  | malformed => cases hToken

end Production

------------------------------------------------------------
-- Productions That Are Open
------------------------------------------------------------

namespace Production

/- The production that a token opens inside another one. -/
def openedBy?
    (token : Token) :
    Production → Option Production
  | ofLeaf _ => none
  | ofSection group =>
      match group.read token with
      | .opening _ child => some child.production
      | _ => none

/-
  What a token does to the open productions, innermost first.
  The closing tag of the innermost one ends it, and a tag that
  it knows opens another.
-/
def track
    (opened : List Production)
    (token : Token) :
    List Production :=
  match opened with
  | [] => []
  | inner :: outer =>
      if token.closes inner.closeTag.text then
        outer
      else
        (inner.openedBy? token).toList ++ inner :: outer

/- The productions that are open behind the tokens. -/
def openAfter
    (production : Production)
    (tokens : List Token) :
    List Production :=
  tokens.foldl track [production]

/- The content of a leaf opens and closes nothing. -/
theorem foldl_track_content
    (leaf : Leaf)
    {code : Code}
    (hContent : code.IsContent)
    (outer : List Production) :
    code.foldl track (ofLeaf leaf :: outer) =
      ofLeaf leaf :: outer := by
  induction code with
  | nil => rfl
  | cons token code ih =>
      have hCloses :
          token.closes (ofLeaf leaf).closeTag.text = false := by
        simp [Token.closes,
          (hContent token List.mem_cons_self).1]
      have hRest : Code.IsContent code :=
        fun other hOther =>
          hContent other (List.mem_cons_of_mem token hOther)
      rw [List.foldl_cons, track, hCloses]
      exact ih hRest

/- A closing tag ends the innermost production. -/
theorem track_close
    {production : Production}
    {token : Token}
    (hCloses : token.closes production.closeTag.text)
    (outer : List Production) :
    track (production :: outer) token = outer := by
  rw [track, if_pos hCloses]

/- A token that closes nothing leaves the section open. -/
theorem track_of_read
    {group : Section}
    {token : Token}
    (hRead : group.read token ≠ .close)
    (outer : List Production) :
    track (ofSection group :: outer) token =
      ((ofSection group).openedBy? token).toList ++
        ofSection group :: outer := by
  rw [track, if_neg]
  exact fun hCloses =>
    hRead (Section.read_eq_close_iff.mpr hCloses)

/- An opening tag opens the child that the section has for it. -/
theorem track_opening
    {group : Section}
    {token : Token}
    {tag : Tag}
    {child : Child}
    (hOpens : token.opens tag.text)
    (hChild : group.child? tag = some child)
    (outer : List Production) :
    track (ofSection group :: outer) token =
      child.production :: ofSection group :: outer := by
  have hRead :=
    Section.read_eq_opening_iff.mpr ⟨hOpens, hChild⟩
  rw [track_of_read (by simp [hRead])]
  simp [openedBy?, hRead]

/- A mark opens and closes nothing. -/
theorem track_mark
    {group : Section}
    {token : Token}
    {tag : Tag}
    (hMarks : token.marks tag.text)
    (hMark : group.hasMark tag)
    (outer : List Production) :
    track (ofSection group :: outer) token =
      ofSection group :: outer := by
  have hRead := Section.read_eq_mark_iff.mpr ⟨hMarks, hMark⟩
  rw [track_of_read (by simp [hRead])]
  simp [openedBy?, hRead]

/- Pieces close what they open, when their insides do. -/
theorem foldl_track_pieces
    {group : Section}
    {pieces : List Piece}
    (hStarts : ∀ piece ∈ pieces, piece.StartsIn group)
    (hInside :
      ∀ opener inside tag fragment child,
        Piece.child opener inside tag fragment ∈ pieces →
          group.child? tag = some child →
            ∀ outer,
              inside.foldl track (child.production :: outer) =
                outer)
    (outer : List Production) :
    (pieces.flatMap Piece.tokens).foldl track
        (ofSection group :: outer) =
      ofSection group :: outer := by
  induction pieces with
  | nil => rfl
  | cons piece pieces ih =>
      have hNext :=
        ih (fun other hOther =>
            hStarts other (List.mem_cons_of_mem piece hOther))
          (fun opener inside tag fragment child hOther =>
            hInside opener inside tag fragment child
              (List.mem_cons_of_mem piece hOther))
      have hStart := hStarts piece List.mem_cons_self
      rw [List.flatMap_cons, List.foldl_append]
      cases piece with
      | child opener inside tag fragment =>
          rcases hStart with ⟨hOpens, hSome⟩
          rcases Option.isSome_iff_exists.mp hSome with
            ⟨child, hChild⟩
          rw [Piece.tokens, List.foldl_cons,
            track_opening hOpens hChild,
            hInside opener inside tag fragment child
              List.mem_cons_self hChild]
          exact hNext
      | mark token tag =>
          rw [Piece.tokens, List.foldl_cons, List.foldl_nil,
            track_mark hStart.1 hStart.2]
          exact hNext

/- What is derived ends its own production and no other. -/
theorem foldl_track_of_derives
    {production : Production}
    {tokens : List Token}
    {fragment : Fragment}
    (hDerives : production.Derives tokens fragment)
    (outer : List Production) :
    tokens.foldl track (production :: outer) = outer := by
  induction hDerives generalizing outer with
  | leaf hContent _ hClose =>
      rw [List.foldl_append, foldl_track_content _ hContent,
        List.foldl_cons, List.foldl_nil, track_close hClose]
  | group hStarts _ _ _ hClose ih =>
      rw [List.foldl_append, foldl_track_pieces hStarts ih,
        List.foldl_cons, List.foldl_nil, track_close hClose]

/- Pieces that fit close what they open. -/
theorem foldl_track_of_fits
    {group : Section}
    {pieces : List Piece}
    (hFits : ∀ piece ∈ pieces, piece.Fits group)
    (outer : List Production) :
    (pieces.flatMap Piece.tokens).foldl track
        (ofSection group :: outer) =
      ofSection group :: outer := by
  apply foldl_track_pieces
  · intro piece hPiece
    exact (hFits piece hPiece).startsIn
  · intro opener inside tag fragment child hPiece hChild
    exact foldl_track_of_derives
      ((hFits _ hPiece).derives hChild)

/- Nothing is opened again once all is closed. -/
theorem foldl_track_nil
    (tokens : List Token) :
    tokens.foldl track [] = [] := by
  induction tokens with
  | nil => rfl
  | cons token tokens ih => exact ih

/-
  What lies around the open productions stays as it is, as long
  as one of them is open.
-/
theorem foldl_track_append
    {opened : List Production}
    {tokens : List Token}
    (hOpen : tokens.foldl track opened ≠ [])
    (outer : List Production) :
    tokens.foldl track (opened ++ outer) =
      tokens.foldl track opened ++ outer := by
  induction tokens generalizing opened with
  | nil => rfl
  | cons token tokens ih =>
      cases opened with
      | nil =>
          exact absurd (foldl_track_nil (token :: tokens)) hOpen
      | cons inner opened =>
          have hStep :
              track (inner :: opened ++ outer) token =
                track (inner :: opened) token ++ outer := by
            rw [List.cons_append, track, track]
            split
            · rfl
            · simp
          rw [List.foldl_cons] at hOpen
          rw [List.foldl_cons, hStep, ih hOpen,
            List.foldl_cons]

/- Inside a child the section around it is open. -/
theorem openAfter_child
    {group : Section}
    {pieces : List Piece}
    {opener : Token}
    {tag : Tag}
    {child : Child}
    {inside : List Token}
    (hFits : ∀ piece ∈ pieces, piece.Fits group)
    (hOpens : opener.opens tag.text)
    (hChild : group.child? tag = some child)
    (hOpen : child.production.openAfter inside ≠ []) :
    (ofSection group).openAfter
        (pieces.flatMap Piece.tokens ++ opener :: inside) =
      child.production.openAfter inside ++
        [ofSection group] := by
  rw [openAfter, List.foldl_append, foldl_track_of_fits hFits,
    List.foldl_cons, track_opening hOpens hChild]
  exact foldl_track_append hOpen [ofSection group]

end Production

------------------------------------------------------------
-- Failures At A Token
------------------------------------------------------------

namespace Production

/- Behind the tokens a leaf is open that has read the code. -/
def InLeaf
    (production : Production)
    (tokens : List Token)
    (leaf : Leaf)
    (code : Code) : Prop :=
  ∃ head outer,
    tokens = head ++ code ∧
      code.IsContent ∧
      production.openAfter head = ofLeaf leaf :: outer

/- A leaf that is open in a child is open in the section. -/
theorem InLeaf.of_child
    {group : Section}
    {pieces : List Piece}
    {opener : Token}
    {tag : Tag}
    {child : Child}
    {inside : List Token}
    {leaf : Leaf}
    {code : Code}
    (hInLeaf : child.production.InLeaf inside leaf code)
    (hFits : ∀ piece ∈ pieces, piece.Fits group)
    (hOpens : opener.opens tag.text)
    (hChild : group.child? tag = some child) :
    (ofSection group).InLeaf
      (pieces.flatMap Piece.tokens ++ opener :: inside) leaf
      code := by
  rcases hInLeaf with ⟨head, outer, rfl, hContent, hOpen⟩
  refine
    ⟨pieces.flatMap Piece.tokens ++ opener :: head,
      outer ++ [ofSection group], by simp, hContent, ?_⟩
  have hSome : child.production.openAfter head ≠ [] := by
    rw [hOpen]
    exact List.cons_ne_nil _ _
  rw [openAfter_child hFits hOpens hChild hSome, hOpen,
    List.cons_append]

/-
  The failure is found at the token behind those that were
  seen, and says so, unless it is about the code of a leaf that
  the token closes.
-/
inductive Blames
    (production : Production)
    (seen : List Token)
    (token : Token)
    (failure : Failure) : Prop
  | token
      (hToken : failure.token = some token)
  | code
      {leaf : Leaf}
      {code : Code}
      {complaint : Malformed}
      (hInLeaf : production.InLeaf seen leaf code)
      (hBuild : leaf.build code token = .error complaint)
      (hToken : failure.token = some complaint.token)

end Production

namespace Section

/- A section takes in pieces that fit and reads on. -/
theorem parse_of_fits
    {group : Section}
    {pieces : List Piece}
    (hFits : ∀ piece ∈ pieces, piece.Fits group)
    (hOnce : group.SetsOnce (.ofPieces pieces))
    (path : List String)
    (before later : List Token) :
    (Production.ofSection group).parse path
        ⟨before, pieces.flatMap Piece.tokens ++ later⟩ =
      group.parse path (.ofPieces pieces)
        ((pieces.flatMap Piece.tokens).reverse ++ before)
        later := by
  have hAll : group.SetsOnce (.ofPieces ([] ++ pieces)) :=
    hOnce
  rw [Production.parse_ofSection]
  refine parse_pieces ?_ ?_ hAll path before later
  · intro piece hPiece
    exact (hFits piece hPiece).startsIn
  · intro opener inside tag fragment child hPiece hChild
    exact Production.reads_of_derives
      ((hFits _ hPiece).derives hChild)

/- What stops a child stops the section that opened it. -/
theorem parse_of_child_error
    {group : Section}
    {pieces : List Piece}
    {opener : Token}
    {tag : Tag}
    {child : Child}
    (hFits : ∀ piece ∈ pieces, piece.Fits group)
    (hOnce : group.SetsOnce (.ofPieces pieces))
    (hOpens : opener.opens tag.text)
    (hChild : group.child? tag = some child)
    (hFree : group.prior? (.ofPieces pieces) child = none)
    {path : List String}
    {before inside : List Token}
    {fault : Fault}
    (hInside :
      child.production.parse (group.id :: path)
          ⟨opener ::
              ((pieces.flatMap Piece.tokens).reverse ++
                before),
            inside⟩ =
        .error fault) :
    (Production.ofSection group).parse path
        ⟨before,
          pieces.flatMap Piece.tokens ++ opener :: inside⟩ =
      .error fault := by
  rw [parse_of_fits hFits hOnce, parse_cons,
    read_eq_opening_iff.mpr ⟨hOpens, hChild⟩]
  simp only [hFree, hInside]
  rfl

/- What stops a section is its next token or the end. -/
theorem Halts.decided
    {group : Section}
    {draft : Draft}
    {before rest : List Token}
    {cause : Cause}
    (hHalts : group.Halts draft before rest cause)
    (hOther : ∀ last, cause ≠ .endOfInput last) :
    ∃ token after,
      rest = token :: after ∧
        cause.token? = some token ∧
        ∀ path behind more,
          group.parse path draft behind (token :: more) =
            (Production.ofSection group).reject path
              cause := by
  cases hHalts with
  | endOfInput => exact absurd rfl (hOther _)
  | child hOpens hChild hPrior =>
      refine ⟨_, _, rfl, rfl, ?_⟩
      intro path behind more
      rw [parse_cons,
        read_eq_opening_iff.mpr ⟨hOpens, hChild⟩]
      simp only [hPrior]
  | mark hMarks hMark hSet =>
      refine ⟨_, _, rfl, rfl, ?_⟩
      intro path behind more
      rw [parse_cons, read_eq_mark_iff.mpr ⟨hMarks, hMark⟩]
      simp only [hSet, if_true]
  | incomplete hCloses hMissing hSubject =>
      refine ⟨_, _, rfl, rfl, ?_⟩
      intro path behind more
      rw [parse_cons, read_eq_close_iff.mpr hCloses]
      simp only [close, hSubject]
      rfl
  | stray hStray =>
      refine ⟨_, _, rfl, rfl, ?_⟩
      intro path behind more
      rw [parse_cons, hStray]

end Section

/- What stops a leaf is a token behind its code or the end. -/
theorem Leaf.Halts.decided
    {leaf : Leaf}
    {before rest : List Token}
    {cause : Cause}
    (hHalts : leaf.Halts before rest cause)
    (hOther : ∀ last, cause ≠ .endOfInput last) :
    ∃ code token after,
      rest = code ++ token :: after ∧
        code.IsContent ∧
        (cause.token? = some token ∨
          ∃ complaint,
            leaf.build code token = .error complaint ∧
              cause.token? = some complaint.token) ∧
        ∀ path behind more,
          (Production.ofLeaf leaf).parse path
              ⟨behind, code ++ token :: more⟩ =
            (Production.ofLeaf leaf).reject path cause := by
  cases hHalts with
  | endOfInput _ => exact absurd rfl (hOther _)
  | unexpected hContent hToken hOpen =>
      refine ⟨_, _, _, rfl, hContent, .inl rfl, ?_⟩
      intro path behind more
      rw [Production.parse_ofLeaf]
      dsimp only
      rw [parse_content leaf path hContent, parse_cons, hOpen,
        hToken]
      rfl
  | malformed hContent hCloses hBuild =>
      refine ⟨_, _, _, rfl, hContent,
        .inr ⟨_, hBuild, rfl⟩, ?_⟩
      intro path behind more
      rw [Production.parse_ofLeaf]
      dsimp only
      rw [parse_content leaf path hContent, parse_cons, hCloses,
        List.nil_append, hBuild]
      rfl

namespace Production

/-
  A failure other than an early end is decided by the tokens up
  to one of them, and the production fails in the same way
  whatever follows that one. The induction is on the sections
  around the failure.
-/
theorem Fails.decided
    {production : Production}
    {path : List String}
    {cursor : Cursor}
    {failure : Failure}
    (hFails : production.Fails path cursor failure)
    (hOther : ¬ failure.IsCutShort) :
    ∃ seen token after,
      cursor.rest = seen ++ token :: after ∧
        production.Blames seen token failure ∧
        ∀ more,
          production.parse path
              ⟨cursor.before, seen ++ token :: more⟩ =
            .error (.rejected failure) := by
  induction hFails with
  | @leaf leaf path cursor cause hHalts =>
      have hCause : ∀ last, cause ≠ .endOfInput last := by
        rintro last rfl
        exact hOther ⟨_, _, _, failure_endOfInput _ _ _⟩
      rcases hHalts.decided hCause with
        ⟨code, token, after, hRest, hContent, hToken, hParse⟩
      refine ⟨code, token, after, hRest, ?_,
        hParse path cursor.before⟩
      rcases hToken with hToken | ⟨complaint, hBuild, hToken⟩
      · exact .token hToken
      · exact .code ⟨[], [], rfl, hContent, rfl⟩ hBuild hToken
  | @group group path cursor place pieces cause hFits hOnce
      hCovers hHalts =>
      have hCause : ∀ last, cause ≠ .endOfInput last := by
        rintro last rfl
        exact hOther ⟨_, _, _, failure_endOfInput _ _ _⟩
      rcases hHalts.decided hCause with
        ⟨token, after, hRest, hToken, hParse⟩
      refine ⟨pieces.flatMap Piece.tokens, token, after, ?_,
        .token hToken, ?_⟩
      · rw [hCovers.rest, hRest]
      · intro more
        rw [Section.parse_of_fits hFits hOnce]
        exact hParse path _ more
  | @child group path cursor place pieces opener tag child
      failure hFits hOnce hCovers hOpens hChild hFree hInside
      ih =>
      rcases ih hOther with
        ⟨seen, token, after, hRest, hBlames, hParse⟩
      refine
        ⟨pieces.flatMap Piece.tokens ++ opener :: seen, token,
          after, ?_, ?_, ?_⟩
      · rw [hCovers.rest, hRest]
        simp
      · cases hBlames with
        | token hToken => exact .token hToken
        | code hInLeaf hBuild hToken =>
            exact .code (hInLeaf.of_child hFits hOpens hChild)
              hBuild hToken
      · intro more
        have hStart :
            opener ::
                ((pieces.flatMap Piece.tokens).reverse ++
                  cursor.before) =
              place.before := by
          rw [hCovers.before]
          simp
        rw [List.append_assoc, List.cons_append]
        apply Section.parse_of_child_error hFits hOnce hOpens
          hChild hFree
        rw [hStart]
        exact hParse more

/-
  An early end is reported by the innermost open production,
  inside those that are open around it. The induction is on the
  sections around the place where the tokens end.
-/
theorem Fails.cutShort_eq
    {production : Production}
    {path : List String}
    {cursor : Cursor}
    {failure : Failure}
    (hFails : production.Fails path cursor failure)
    (hCut : failure.IsCutShort) :
    ∃ inner outer,
      production.openAfter cursor.rest = inner :: outer ∧
        failure =
          inner.cutShort (outer.map Production.id ++ path)
            (cursor.rest.reverse ++ cursor.before).head? := by
  induction hFails with
  | @leaf leaf path cursor cause hHalts =>
      rcases endOfInput_of_isCutShort hCut with ⟨last, rfl⟩
      rcases cursor with ⟨before, rest⟩
      cases hHalts with
      | endOfInput hContent =>
          exact ⟨ofLeaf leaf, [],
            foldl_track_content leaf hContent [],
            failure_endOfInput _ _ _⟩
  | @group group path cursor place pieces cause hFits hOnce
      hCovers hHalts =>
      rcases endOfInput_of_isCutShort hCut with ⟨last, rfl⟩
      rcases place with ⟨before, rest⟩
      cases hHalts
      have hRest :
          cursor.rest = pieces.flatMap Piece.tokens := by
        rw [hCovers.rest, List.append_nil]
      have hBefore :
          before = cursor.rest.reverse ++ cursor.before := by
        rw [hRest]
        exact hCovers.before
      refine ⟨ofSection group, [], ?_, ?_⟩
      · rw [hRest]
        exact foldl_track_of_fits hFits []
      · rw [failure_endOfInput, ← hBefore]
        rfl
  | @child group path cursor place pieces opener tag child
      failure hFits hOnce hCovers hOpens hChild hFree hInside
      ih =>
      rcases ih hCut with ⟨inner, outer, hOpen, hFailure⟩
      refine ⟨inner, outer ++ [ofSection group], ?_, ?_⟩
      · have hSome :
            child.production.openAfter place.rest ≠ [] := by
          rw [hOpen]
          exact List.cons_ne_nil _ _
        rw [hCovers.rest, List.append_assoc,
          List.singleton_append,
          openAfter_child hFits hOpens hChild hSome, hOpen,
          List.cons_append]
      · rw [hFailure, hCovers.before, hCovers.rest]
        simp [Production.id]

end Production

------------------------------------------------------------
-- Runs
------------------------------------------------------------

namespace Production

variable {production : Production}
variable {tokens : List Token}

/- A run reads a production and leaves what is behind it. -/
theorem run_eq
    (production : Production)
    (tokens : List Token) :
    run production.id tokens =
      (production.parse [] ⟨[], tokens⟩).map
        (fun found => (found.1, found.2.rest)) := by
  have hRun :=
    Step.run_enter_nil production (Cursor.ofTokens tokens)
  rw [run, hRun]
  change _ = Except.map _
    (production.parse [] (Cursor.ofTokens tokens))
  cases production.parse [] (Cursor.ofTokens tokens) <;> rfl

/- A run gives a fragment for tokens that derive it. -/
theorem run_eq_ok_iff
    {fragment : Fragment}
    {rest : List Token} :
    run production.id tokens = .ok (fragment, rest) ↔
      ∃ inside,
        tokens = inside ++ rest ∧
          production.Derives inside fragment := by
  rw [run_eq]
  constructor
  · intro hRun
    cases hParse : production.parse [] ⟨[], tokens⟩ with
    | error fault =>
        rw [hParse] at hRun
        cases hRun
    | ok found =>
        rcases found with ⟨part, later⟩
        rw [hParse] at hRun
        cases hRun
        rcases derives_of_parse hParse with
          ⟨inside, hCovers, hDerives⟩
        exact ⟨inside, hCovers.rest, hDerives⟩
  · rintro ⟨inside, rfl, hDerives⟩
    rw [reads_of_derives hDerives]
    rfl

/- A run stops with the failure of its production. -/
theorem run_eq_error_iff
    {fault : Fault} :
    run production.id tokens = .error fault ↔
      production.parse [] ⟨[], tokens⟩ = .error fault := by
  rw [run_eq]
  cases production.parse [] ⟨[], tokens⟩ with
  | error found => simp [Except.map]
  | ok found => simp [Except.map]

/- A run without a fragment is refused with a failure. -/
theorem fails_of_run
    {fault : Fault}
    (hRun : run production.id tokens = .error fault) :
    ∃ failure,
      fault = .rejected failure ∧
        production.Fails [] ⟨[], tokens⟩ failure :=
  fails_of_parse (run_eq_error_iff.mp hRun)

/- Where a production was read, nothing is open. -/
theorem openAfter_of_run
    {fragment : Fragment}
    {rest : List Token}
    (hRun : run production.id tokens = .ok (fragment, rest)) :
    production.openAfter tokens = [] := by
  rcases run_eq_ok_iff.mp hRun with ⟨inside, rfl, hDerives⟩
  rw [openAfter, List.foldl_append,
    foldl_track_of_derives hDerives, foldl_track_nil]

/- What is read does not depend on what follows. -/
theorem run_append_of_ok
    {fragment : Fragment}
    {rest : List Token}
    (hRun : run production.id tokens = .ok (fragment, rest))
    (more : List Token) :
    run production.id (tokens ++ more) =
      .ok (fragment, rest ++ more) := by
  rcases run_eq_ok_iff.mp hRun with ⟨inside, rfl, hDerives⟩
  exact run_eq_ok_iff.mpr
    ⟨inside, List.append_assoc _ _ _, hDerives⟩

/- A failure at a token does not depend on what follows. -/
theorem run_append_of_error
    {fault : Fault}
    (hRun : run production.id tokens = .error fault)
    (hOther : ¬ fault.IsCutShort)
    (more : List Token) :
    run production.id (tokens ++ more) = .error fault := by
  rcases fails_of_run hRun with ⟨failure, rfl, hFails⟩
  have hFailure : ¬ failure.IsCutShort :=
    fun hCut => hOther ⟨failure, rfl, hCut⟩
  rcases hFails.decided hFailure with
    ⟨seen, token, after, hTokens, _, hParse⟩
  dsimp only at hTokens
  rw [run_eq_error_iff, hTokens, List.append_assoc,
    List.cons_append]
  exact hParse (after ++ more)

/- Tokens that end too early, in terms of what is open. -/
theorem run_eq_of_isCutShort
    {fault : Fault}
    (hRun : run production.id tokens = .error fault)
    (hCut : fault.IsCutShort) :
    ∃ inner outer,
      production.openAfter tokens = inner :: outer ∧
        fault =
          .rejected
            (inner.cutShort (outer.map Production.id)
              tokens.getLast?) := by
  rcases fails_of_run hRun with ⟨failure, rfl, hFails⟩
  rcases hCut with ⟨_, hSame, hFailure⟩
  cases hSame
  rcases hFails.cutShort_eq hFailure with
    ⟨inner, outer, hOpen, hEqual⟩
  refine ⟨inner, outer, hOpen, ?_⟩
  rw [hEqual]
  simp

/- What is read in full cannot be read in full before. -/
theorem run_start_of_ok
    {fragment : Fragment}
    {start more : List Token}
    (hRun :
      run production.id (start ++ more) = .ok (fragment, []))
    (hMore : more ≠ []) :
    ∃ fault,
      run production.id start = .error fault ∧
        fault.IsCutShort := by
  cases hStart : run production.id start with
  | ok found =>
      rcases found with ⟨part, rest⟩
      have hWhole := run_append_of_ok hStart more
      rw [hRun, Except.ok.injEq, Prod.mk.injEq] at hWhole
      have hNone := List.append_eq_nil_iff.mp hWhole.2.symm
      exact absurd hNone.2 hMore
  | error fault =>
      refine ⟨fault, rfl, ?_⟩
      by_contra hOther
      have hWhole := run_append_of_error hStart hOther more
      rw [hRun] at hWhole
      cases hWhole

/- A stream that is read in full has no shorter start like it. -/
theorem eq_of_run_of_isPrefix
    {fragment part : Fragment}
    {other : List Token}
    (hRun : run production.id tokens = .ok (fragment, []))
    (hOther : run production.id other = .ok (part, []))
    (hStart : tokens <+: other) :
    tokens = other := by
  rcases hStart with ⟨more, rfl⟩
  rw [run_append_of_ok hRun more, Except.ok.injEq,
    Prod.mk.injEq, List.nil_append] at hOther
  rw [hOther.2, List.append_nil]

/-
  The tokens read so far decide the outcome, and a missing end
  is always noticed. What is read stays read, and a failure at
  a token stays the same, whatever follows. Where all tokens
  were read, every shorter start of them ends too early: the
  innermost production that is open behind it reports this, at
  the place of the last token, with those around it as callers.
  So of two streams that are read in full, neither starts with
  the other.
-/
theorem run_truncation
    (production : Production)
    (tokens : List Token) :
    (∀ fragment rest,
      run production.id tokens = .ok (fragment, rest) →
        ∀ more,
          run production.id (tokens ++ more) =
            .ok (fragment, rest ++ more)) ∧
    (∀ fault,
      run production.id tokens = .error fault →
        ¬ fault.IsCutShort →
          ∀ more,
            run production.id (tokens ++ more) =
              .error fault) ∧
    (∀ fragment,
      run production.id tokens = .ok (fragment, []) →
        (∀ start,
          start <+: tokens →
            start ≠ tokens →
              ∃ inner outer,
                production.openAfter start = inner :: outer ∧
                  run production.id start =
                    .error (.rejected
                      (inner.cutShort
                        (outer.map Production.id)
                        start.getLast?))) ∧
        (∀ other part,
          run production.id other = .ok (part, []) →
            tokens <+: other →
              tokens = other)) := by
  refine ⟨?_, ?_, ?_⟩
  · intro fragment rest hRun more
    exact run_append_of_ok hRun more
  · intro fault hRun hOther more
    exact run_append_of_error hRun hOther more
  · intro fragment hRun
    constructor
    · rintro start ⟨more, rfl⟩ hShorter
      have hMore : more ≠ [] := by
        rintro rfl
        exact hShorter (List.append_nil start).symm
      rcases run_start_of_ok hRun hMore with
        ⟨fault, hStart, hCut⟩
      rcases run_eq_of_isCutShort hStart hCut with
        ⟨inner, outer, hOpen, rfl⟩
      exact ⟨inner, outer, hOpen, hStart⟩
    · intro other part hOther hStart
      exact eq_of_run_of_isPrefix hRun hOther hStart

/-
  A constant parameter that is read with a token behind it, one
  that is refused at a tag it does not know, and one that is
  cut off inside its type.
-/
theorem run_truncation_const :
    let name : Token := ⟨.ident, "N", false, {}⟩
    let type : Token := ⟨.ident, "usize", true, {}⟩
    let stray : Token := .ofOpenTag "ret"
    let start : List Token :=
      [.ofOpenTag "name", name, .ofCloseTag "name",
        .ofOpenTag "type", type]
    let whole : List Token :=
      start ++ [.ofCloseTag "type", .ofCloseTag "const"]
    let refused : Fault :=
      .rejected
        ((ofSection .constParam).failure [] (.unexpected stray))
    run "const" (whole ++ [stray]) =
        .ok (.param (.const name [type]), [stray]) ∧
      run "const" ([stray] ++ whole) = .error refused ∧
      run "const" start =
        .error (.rejected
          ((ofLeaf .type).cutShort ["const"] (some type))) ∧
      run "const" (whole ++ [stray]) ≠
        .ok (.param (.const name [type]), []) := by
  intro name type stray start whole refused
  have hWhole :
      run (ofSection .constParam).id whole =
        .ok (.param (.const name [type]), []) := by
    decide +kernel
  have hStray :
      run (ofSection .constParam).id [stray] =
        .error refused := by
    decide +kernel
  have hRefused : ¬ refused.IsCutShort := by
    rintro ⟨_, hSame, _, _, _, rfl⟩
    cases congrArg Failure.token (Fault.rejected.inj hSame)
  have hShorter : start ≠ whole := by decide
  rcases run_truncation (ofSection .constParam) whole with
    ⟨hMore, _, hEnd⟩
  rcases run_truncation (ofSection .constParam) [stray] with
    ⟨_, hFault, _⟩
  rcases hEnd _ hWhole with ⟨hStarts, hNoOther⟩
  rcases hStarts start (List.prefix_append _ _) hShorter with
    ⟨inner, outer, hOpen, hStart⟩
  have hKnown :
      (ofSection .constParam).openAfter start =
        [ofLeaf .type, ofSection .constParam] := by
    decide
  cases hOpen.symm.trans hKnown
  refine ⟨hMore _ _ hWhole [stray],
    hFault refused hStray hRefused whole, hStart, ?_⟩
  intro hLonger
  exact absurd
    (hNoOther _ _ hLonger (List.prefix_append whole [stray]))
    (by decide)

end Production

end TraitMarkup
