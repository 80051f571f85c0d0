import TraitMarkup.Proofs.Partition
import TraitMarkup.Proofs.Truncation

/-
  Where a diagnostic points, and what it names.

  A failure at a token is the failure of the production that is
  open in front of that token, and the productions around it
  are its callers. A token is counted where it stands in the
  text. So a diagnostic can be told from the tokens of the text
  and from the tags that are open in them.

  Key definitions include:
    * `Production.Stops`
    * `Token.StandsIn`
    * `Diagnostic.PointsTo`
    * `Diagnostic.Locates`

  Main declarations:
    * `Leaf.mem_of_build_error`
    * `Production.Fails.stops`
    * `Production.getLast?_of_openAfter`
    * `Production.eq_trait_iff_of_openAfter`
    * `Token.Partition.standsIn`
    * `TraitDecl.ofSource_diagnosis`
-/

namespace TraitMarkup

------------------------------------------------------------
-- Tokens That A Leaf Complains About
------------------------------------------------------------

namespace Leaf

/- A complaint about a restriction is at one of its tokens. -/
theorem mem_of_checkRestriction_error
    {last : Token}
    {code : Code}
    {complaint : Malformed}
    (hCheck : checkRestriction last code = .error complaint) :
    complaint.token ∈ last :: code := by
  unfold checkRestriction at hCheck
  split at hCheck
  · cases hCheck
    exact List.mem_cons_self
  all_goals
    split at hCheck
    · cases hCheck
    · cases hCheck
      exact List.mem_cons_of_mem _ List.mem_cons_self

/- A complaint about what follows `pub` is at one of its tokens. -/
theorem mem_of_checkAfterPub_error
    {code : Code}
    {complaint : Malformed}
    (hCheck : checkAfterPub code = .error complaint) :
    complaint.token ∈ code := by
  unfold checkAfterPub at hCheck
  split at hCheck
  · cases hCheck
  · split at hCheck
    · cases hCheck
      exact List.mem_cons_self
    · rename_i last hLast
      split at hCheck
      · apply List.mem_cons_of_mem
        rcases List.mem_cons.mp
            (mem_of_checkRestriction_error hCheck) with
          hClose | hInner
        · rw [hClose]
          exact List.mem_of_getLast? hLast
        · exact List.mem_of_mem_dropLast hInner
      · cases hCheck
        exact List.mem_cons_self

/-
  A leaf complains about a token of its code, or about its
  closing tag when there is no code.
-/
theorem mem_of_build_error
    {leaf : Leaf}
    {code : Code}
    {close : Token}
    {complaint : Malformed}
    (hBuild : leaf.build code close = .error complaint) :
    complaint.token ∈ code ∨ complaint.token = close := by
  unfold build at hBuild
  split at hBuild
  · cases hBuild
  · cases hBuild
    exact .inr rfl
  · refine .inl ?_
    unfold buildSingle at hBuild
    split at hBuild
    · cases hBuild
      exact List.mem_cons_self
    · split at hBuild
      · cases hBuild
      · cases hBuild
        exact List.mem_cons_of_mem _ List.mem_cons_self
  · rename_i first rest _
    refine .inl ?_
    unfold buildVisibility at hBuild
    split at hBuild
    · cases hCheck : checkAfterPub rest with
      | ok done =>
          rw [hCheck] at hBuild
          cases hBuild
      | error found =>
          rw [hCheck] at hBuild
          cases hBuild
          exact List.mem_cons_of_mem first
            (mem_of_checkAfterPub_error hCheck)
    · cases hBuild
      exact List.mem_cons_self
  · refine .inl ?_
    unfold buildPath at hBuild
    split at hBuild
    · split at hBuild
      · cases hBuild
        exact List.mem_cons_self
      · cases hBuild
    · cases hBuild
  · cases hBuild

/- What stops a leaf is at a token behind a part of its code. -/
theorem Halts.stops
    {leaf : Leaf}
    {before rest : List Token}
    {cause : Cause}
    (hHalts : leaf.Halts before rest cause)
    (hOther : ∀ last, cause ≠ .endOfInput last) :
    ∃ code token after,
      rest = code ++ token :: after ∧
        Code.IsContent code ∧
        cause.token? = some token := by
  cases hHalts with
  | endOfInput _ => exact absurd rfl (hOther _)
  | unexpected hContent _ _ =>
      exact ⟨_, _, _, rfl, hContent, rfl⟩
  | @malformed code close rest complaint hContent _ hBuild =>
      rcases mem_of_build_error hBuild with hMember | hClose
      · rcases List.append_of_mem hMember with
          ⟨first, second, rfl⟩
        exact ⟨first, complaint.token,
          second ++ close :: rest, by simp,
          (List.forall_mem_append.mp hContent).1, rfl⟩
      · exact ⟨code, close, rest, rfl, hContent,
          congrArg some hClose⟩

end Leaf

------------------------------------------------------------
-- Tokens That Stop A Production
------------------------------------------------------------

namespace Production

/-
  Behind the tokens seen so far, `inner` is open inside
  `outer`. If nothing followed, the only fault would be that the
  tokens end there. The failure is that of `inner`, and it is at
  the token.
-/
structure Stops
    (production : Production)
    (path : List String)
    (before seen : List Token)
    (token : Token)
    (failure : Failure)
    (inner : Production)
    (outer : List Production) : Prop where
  opened : production.openAfter seen = inner :: outer
  viable :
    production.parse path ⟨before, seen⟩ =
      .error (.rejected
        (inner.cutShort (outer.map Production.id ++ path)
          (seen.reverse ++ before).head?))
  failing :
    ∃ cause,
      cause.token? = some token ∧
        failure =
          inner.failure (outer.map Production.id ++ path) cause

/- A leaf whose code has no end is cut short. -/
theorem parse_content_eq
    (leaf : Leaf)
    (path : List String)
    {code : Code}
    (hContent : code.IsContent)
    (before : List Token) :
    (ofLeaf leaf).parse path ⟨before, code⟩ =
      .error (.rejected
        ((ofLeaf leaf).cutShort path
          (code.reverse ++ before).head?)) := by
  have hParse :=
    Leaf.parse_content leaf path hContent [] before []
  rw [List.append_nil, Leaf.parse_nil] at hParse
  rw [parse_ofLeaf]
  exact hParse

/- A section that ends behind its pieces is cut short. -/
theorem parse_pieces_eq
    {group : Section}
    {pieces : List Piece}
    (hFits : ∀ piece ∈ pieces, piece.Fits group)
    (hOnce : group.SetsOnce (.ofPieces pieces))
    (path : List String)
    (before : List Token) :
    (ofSection group).parse path
        ⟨before, pieces.flatMap Piece.tokens⟩ =
      .error (.rejected
        ((ofSection group).cutShort path
          ((pieces.flatMap Piece.tokens).reverse ++
            before).head?)) := by
  have hParse :=
    Section.parse_of_fits hFits hOnce path before []
  rw [List.append_nil, Section.parse_nil] at hParse
  exact hParse

/- What stops a child stops the section around it. -/
theorem Stops.of_child
    {group : Section}
    {pieces : List Piece}
    {opener : Token}
    {tag : Tag}
    {child : Child}
    (hFits : ∀ piece ∈ pieces, piece.Fits group)
    (hOnce : group.SetsOnce (.ofPieces pieces))
    (hOpens : opener.opens tag.text)
    (hChild : group.child? tag = some child)
    (hFree : group.prior? (.ofPieces pieces) child = none)
    {path : List String}
    {before seen : List Token}
    {token : Token}
    {failure : Failure}
    {inner : Production}
    {outer : List Production}
    (hStops :
      child.production.Stops (group.id :: path)
        (opener ::
          ((pieces.flatMap Piece.tokens).reverse ++ before))
        seen token failure inner outer) :
    (ofSection group).Stops path before
      (pieces.flatMap Piece.tokens ++ opener :: seen) token
      failure inner (outer ++ [ofSection group]) := by
  have hPath :
      (outer ++ [ofSection group]).map Production.id ++ path =
        outer.map Production.id ++ group.id :: path := by
    simp [Production.id]
  refine ⟨?_, ?_, ?_⟩
  · have hSome : child.production.openAfter seen ≠ [] := by
      rw [hStops.opened]
      exact List.cons_ne_nil _ _
    rw [openAfter_child hFits hOpens hChild hSome,
      hStops.opened, List.cons_append]
  · rw [Section.parse_of_child_error hFits hOnce hOpens hChild
      hFree hStops.viable, hPath]
    simp
  · rw [hPath]
    exact hStops.failing

/-
  A failure other than an early end is at a token, and it is
  the failure of the innermost production that is open there.
  The induction is on the sections around the failure.
-/
theorem Fails.stops
    {production : Production}
    {path : List String}
    {cursor : Cursor}
    {failure : Failure}
    (hFails : production.Fails path cursor failure)
    (hOther : ¬ failure.IsCutShort) :
    ∃ seen token after inner outer,
      cursor.rest = seen ++ token :: after ∧
        production.Stops path cursor.before seen token failure
          inner outer := by
  induction hFails with
  | @leaf leaf path cursor cause hHalts =>
      have hCause : ∀ last, cause ≠ .endOfInput last := by
        rintro last rfl
        exact hOther ⟨_, _, _, failure_endOfInput _ _ _⟩
      rcases hHalts.stops hCause with
        ⟨code, token, after, hRest, hContent, hToken⟩
      exact ⟨code, token, after, ofLeaf leaf, [], hRest,
        foldl_track_content leaf hContent [],
        parse_content_eq leaf path hContent cursor.before,
        cause, hToken, rfl⟩
  | @group group path cursor place pieces cause hFits hOnce
      hCovers hHalts =>
      have hCause : ∀ last, cause ≠ .endOfInput last := by
        rintro last rfl
        exact hOther ⟨_, _, _, failure_endOfInput _ _ _⟩
      rcases hHalts.decided hCause with
        ⟨token, after, hRest, hToken, _⟩
      refine ⟨pieces.flatMap Piece.tokens, token, after,
        ofSection group, [], ?_,
        foldl_track_of_fits hFits [],
        parse_pieces_eq hFits hOnce path cursor.before,
        cause, hToken, rfl⟩
      rw [hCovers.rest, hRest]
  | @child group path cursor place pieces opener tag child
      failure hFits hOnce hCovers hOpens hChild hFree hInside
      ih =>
      rcases ih hOther with
        ⟨seen, token, after, inner, outer, hRest, hStops⟩
      have hStart :
          place.before =
            opener ::
              ((pieces.flatMap Piece.tokens).reverse ++
                cursor.before) := by
        rw [hCovers.before]
        simp
      rw [hStart] at hStops
      refine ⟨pieces.flatMap Piece.tokens ++ opener :: seen,
        token, after, inner, outer ++ [ofSection group], ?_,
        .of_child hFits hOnce hOpens hChild hFree hStops⟩
      rw [hCovers.rest, hRest]
      simp

/- A token leaves the outermost production as it is. -/
theorem getLast?_track
    {opened : List Production}
    {production : Production}
    (hLast : opened.getLast? = some production)
    {token : Token}
    (hOpen : track opened token ≠ []) :
    (track opened token).getLast? = some production := by
  cases opened with
  | nil => cases hLast
  | cons inner outer =>
      rw [track] at hOpen ⊢
      split at hOpen
      · rename_i hCloses
        rw [if_pos hCloses]
        rw [List.getLast?_cons_of_ne_nil hOpen] at hLast
        exact hLast
      · rename_i hCloses
        rw [if_neg hCloses, List.getLast?_append, hLast]
        rfl

/- As long as anything is open, the outermost production is. -/
theorem getLast?_openAfter
    {production : Production}
    {tokens : List Token}
    (hOpen : production.openAfter tokens ≠ []) :
    (production.openAfter tokens).getLast? =
      some production := by
  induction tokens using List.reverseRecOn with
  | nil => rfl
  | append_singleton tokens token ih =>
      rw [openAfter, List.foldl_append, List.foldl_cons,
        List.foldl_nil] at hOpen ⊢
      refine getLast?_track (ih fun hNone => hOpen ?_) hOpen
      change track (production.openAfter tokens) token = []
      rw [hNone, track]

/- The outermost of the open productions is the first one. -/
theorem getLast?_of_openAfter
    {production inner : Production}
    {outer : List Production}
    {tokens : List Token}
    (hOpen : production.openAfter tokens = inner :: outer) :
    (inner :: outer).getLast? = some production := by
  have hSome : production.openAfter tokens ≠ [] := by
    rw [hOpen]
    exact List.cons_ne_nil _ _
  rw [← hOpen]
  exact getLast?_openAfter hSome

/- No section has a trait for a child. -/
theorem ne_trait_of_openedBy?
    {production child : Production}
    {token : Token}
    (hOpened : production.openedBy? token = some child) :
    child ≠ ofSection .trait := by
  unfold openedBy? at hOpened
  split at hOpened
  · cases hOpened
  · rename_i group
    split at hOpened
    · rename_i tag found hRead
      cases hOpened
      have hChild := (Section.read_eq_opening_iff.mp hRead).2
      intro hTrait
      have hTag := Section.closeTag_of_child? hChild
      rw [hTrait] at hTag
      change Tag.trait = tag at hTag
      subst hTag
      cases group <;> cases hChild
    · cases hOpened

/- A trait is open inside of nothing. -/
theorem ne_trait_of_mem_dropLast
    {tokens : List Token}
    {inner : Production}
    (hInner :
      inner ∈ ((ofSection .trait).openAfter tokens).dropLast) :
    inner ≠ ofSection .trait := by
  induction tokens using List.reverseRecOn with
  | nil => cases hInner
  | append_singleton tokens token ih =>
      rw [openAfter, List.foldl_append, List.foldl_cons,
        List.foldl_nil] at hInner
      change
        inner ∈
          (track ((ofSection .trait).openAfter tokens)
            token).dropLast at hInner
      cases hOpen : (ofSection .trait).openAfter tokens with
      | nil =>
          rw [hOpen] at hInner
          cases hInner
      | cons top outer =>
          rw [hOpen] at hInner ih
          rw [track] at hInner
          split at hInner
          · apply ih
            cases outer with
            | nil => cases hInner
            | cons next outer =>
                exact List.mem_cons_of_mem top hInner
          · cases hChild : top.openedBy? token with
            | none =>
                rw [hChild] at hInner
                exact ih hInner
            | some child =>
                rw [hChild] at hInner
                rcases List.mem_cons.mp hInner with
                  rfl | hBelow
                · exact ne_trait_of_openedBy? hChild
                · exact ih hBelow

/- The trait is the innermost one if nothing else is open. -/
theorem eq_trait_iff_of_openAfter
    {tokens : List Token}
    {inner : Production}
    {outer : List Production}
    (hOpen :
      (ofSection .trait).openAfter tokens = inner :: outer) :
    inner = ofSection .trait ↔ outer = [] := by
  constructor
  · intro hTrait
    cases outer with
    | nil => rfl
    | cons next outer =>
        have hInner :
            inner ∈
              ((ofSection .trait).openAfter
                tokens).dropLast := by
          rw [hOpen]
          exact List.mem_cons_self
        exact absurd hTrait (ne_trait_of_mem_dropLast hInner)
  · rintro rfl
    exact Option.some.inj (getLast?_of_openAfter hOpen)

end Production

------------------------------------------------------------
-- Places In A Text
------------------------------------------------------------

/- The token is a part of the text, and its span says where. -/
def Token.StandsIn
    (file : Option String)
    (text : List Char)
    (token : Token) : Prop :=
  ∃ front back,
    text = front ++ token.text.toList ++ back ∧
      token.span =
        .between file (.ofOffset text front.length)
          (.ofOffset text
            (front ++ token.text.toList).length)

/- The tokens of a text stand in it. -/
theorem Token.Partition.standsIn
    {file : Option String}
    {text before : List Char}
    {tokens : List Token}
    (hPartition : Token.Partition file text before tokens)
    {token : Token}
    (hMember : token ∈ tokens) :
    token.StandsIn file text := by
  induction hPartition with
  | done _ _ => cases hMember
  | @token before gap rest first tokens hText _ _ _ _ hSpan _
      ih =>
      rcases List.mem_cons.mp hMember with rfl | hLater
      · exact ⟨before ++ gap, rest, hText, hSpan⟩
      · exact ih hLater

/- A text that is stuck is refused at its stray character. -/
theorem readTokens_eq_error
    (file : Option String)
    {text : String}
    {pieces : List (Option Kind × List Char)}
    {c : Char}
    {rest : List Char}
    (hCuts : Lexeme.Cuts text.toList pieces (c :: rest))
    (hStuck : Lexeme.classify (c :: rest) = none) :
    readTokens file text =
      .error (.rejected
        (StrayCharacter.failure
          ⟨c, .ofOffset text.toList
            (pieces.flatMap Prod.snd).length⟩ file)) := by
  have hPlace :=
    Location.after_start (pieces.flatMap Prod.snd) (c :: rest)
  rw [← hCuts.text_eq] at hPlace
  rw [readTokens, Token.ofText,
    hCuts.scan_eq hStuck (List.cons_ne_nil c rest) .start,
    hPlace]
  rfl

/- The tokens that are read stand in the text. -/
theorem standsIn_of_readTokens
    {file : Option String}
    {text : String}
    {tokens : List Token}
    (hTokens : readTokens file text = .ok tokens)
    {token : Token}
    (hMember : token ∈ tokens) :
    token.StandsIn file text.toList := by
  rcases Lexeme.exists_cuts text.toList with
    hWhole | ⟨pieces, c, rest, hCuts, hStuck⟩
  · rcases hWhole .start with ⟨lexemes, hScan⟩
    have hPartition :
        Token.Partition file text.toList []
          (Token.ofLexemes file false false lexemes) :=
      Token.partition_of_scan file rfl .nil (by simp) (by simp)
        hScan
    rw [readTokens, Token.ofText, hScan] at hTokens
    cases hTokens
    exact hPartition.standsIn hMember
  · rw [readTokens_eq_error file hCuts hStuck] at hTokens
    cases hTokens

/- A text without tokens is stuck somewhere. -/
theorem stuck_of_readTokens
    {file : Option String}
    {text : String}
    {fault : Fault}
    (hTokens : readTokens file text = .error fault) :
    ∃ pieces c rest,
      Lexeme.Cuts text.toList pieces (c :: rest) ∧
        Lexeme.classify (c :: rest) = none := by
  rcases Lexeme.exists_cuts text.toList with hWhole | hStuck
  · rcases hWhole .start with ⟨lexemes, hScan⟩
    rw [readTokens, Token.ofText, hScan] at hTokens
    cases hTokens
  · exact hStuck

/- A span that is in a file is put there by nothing. -/
theorem Span.withFile_eq
    {span : Span}
    {file : Option String}
    (hFile : span.file = file) :
    span.withFile file = span := by
  subst hFile
  rcases span with ⟨_ | _⟩ <;> rfl

------------------------------------------------------------
-- Diagnostics
------------------------------------------------------------

/- What a diagnostic notes about an open production. -/
def Production.note
    (production : Production) :
    String :=
  "while parsing `<" ++ production.id ++ ">`"

/- The notes of a failure are those of its callers. -/
theorem Failure.notes_eq
    {failure : Failure}
    {outer : List Production}
    (hCallers : failure.callers = outer.map Production.id) :
    failure.notes = outer.map Production.note := by
  rw [notes, hCallers, List.map_map]
  rfl

namespace Diagnostic

/- The diagnostic points to a token of the text. -/
def PointsTo
    (file : Option String)
    (text : String)
    (diagnostic : Diagnostic)
    (token : Token) : Prop :=
  token.StandsIn file text.toList ∧
    diagnostic.span = token.span

/-
  Where the diagnostic for a text points, and which open
  productions it names.

  It points to a character that is part of no lexeme, nowhere
  in a text without tokens, to a first token other than the
  opening tag, to a token at which the section fails, to the
  last token if the tokens end inside the section, or to a
  token behind it.
-/
inductive Locates
    (file : Option String)
    (text : String)
    (diagnostic : Diagnostic) : Prop
  | stray
      {pieces : List (Option Kind × List Char)}
      {c : Char}
      {rest : List Char}
      (hCuts : Lexeme.Cuts text.toList pieces (c :: rest))
      (hStuck :
        ∀ kind matcher,
          (kind, matcher) ∈ Lexeme.classes →
            matcher (c :: rest) = none)
      (hSpan :
        diagnostic.span =
          .startingAt file
            (.ofOffset text.toList
              (pieces.flatMap Prod.snd).length))
      (hNotes : diagnostic.notes = [])
  | nothing
      (hTokens : readTokens file text = .ok [])
      (hSpan : diagnostic.span = { file := file })
      (hNotes : diagnostic.notes = [])
  | noTrait
      {token : Token}
      {rest : List Token}
      (hTokens : readTokens file text = .ok (token :: rest))
      (hOther : token.opens "trait" = false)
      (hPoints : diagnostic.PointsTo file text token)
      (hNotes : diagnostic.notes = [])
  | token
      {opener token : Token}
      {seen after : List Token}
      {inner : Production}
      {outer : List Production}
      {cause : Cause}
      (hTokens :
        readTokens file text =
          .ok (opener :: (seen ++ token :: after)))
      (hOpens : opener.opens "trait")
      (hViable :
        TraitDecl.ofTokens (opener :: seen) =
          .error (.rejected
            (inner.cutShort (outer.map Production.id)
              (opener :: seen).getLast?)))
      (hOpen :
        (Production.ofSection .trait).openAfter seen =
          inner :: outer)
      (hOutermost :
        (inner :: outer).getLast? = some (.ofSection .trait))
      (hOwn : inner = .ofSection .trait ↔ outer = [])
      (hCause : cause.token? = some token)
      (hFailure :
        TraitDecl.ofText file text =
          .error (.rejected
            (inner.failure (outer.map Production.id) cause)))
      (hPoints : diagnostic.PointsTo file text token)
      (hNotes : diagnostic.notes = outer.map Production.note)
  | endOfInput
      {opener last : Token}
      {rest : List Token}
      {inner : Production}
      {outer : List Production}
      (hTokens : readTokens file text = .ok (opener :: rest))
      (hOpens : opener.opens "trait")
      (hOpen :
        (Production.ofSection .trait).openAfter rest =
          inner :: outer)
      (hOutermost :
        (inner :: outer).getLast? = some (.ofSection .trait))
      (hOwn : inner = .ofSection .trait ↔ outer = [])
      (hLast : (opener :: rest).getLast? = some last)
      (hFailure :
        TraitDecl.ofText file text =
          .error (.rejected
            (inner.cutShort (outer.map Production.id)
              (some last))))
      (hPoints : diagnostic.PointsTo file text last)
      (hNotes : diagnostic.notes = outer.map Production.note)
  | extraneous
      {opener token : Token}
      {inside rest : List Token}
      {fragment : Fragment}
      (hTokens :
        readTokens file text =
          .ok (opener :: (inside ++ token :: rest)))
      (hOpens : opener.opens "trait")
      (hDerives :
        (Production.ofSection .trait).Derives inside fragment)
      (hPoints : diagnostic.PointsTo file text token)
      (hNotes : diagnostic.notes = [])

/- A failure at a token of the text points to it. -/
theorem pointsTo_of_span
    {file : Option String}
    {text : String}
    {tokens : List Token}
    (hTokens : readTokens file text = .ok tokens)
    {token : Token}
    (hMember : token ∈ tokens)
    {failure : Failure}
    (hSpan : failure.span = token.span) :
    (failure.toDiagnostic file).PointsTo file text token := by
  have hStands := standsIn_of_readTokens hTokens hMember
  refine ⟨hStands, ?_⟩
  rcases hStands with ⟨front, back, _, hPlace⟩
  have hFile : token.span.file = file := by
    rw [hPlace]
    rfl
  change failure.span.withFile file = token.span
  rw [hSpan, Span.withFile_eq hFile]

/- What points to a token is in the file, at a known place. -/
theorem PointsTo.place
    {file : Option String}
    {text : String}
    {diagnostic : Diagnostic}
    {token : Token}
    (hPoints : diagnostic.PointsTo file text token) :
    diagnostic.span.file = file ∧
      diagnostic.span.line ≠ none ∧
      diagnostic.span.column ≠ none := by
  rcases hPoints with ⟨⟨front, back, _, hSpan⟩, hSame⟩
  rw [hSame, hSpan]
  simp [Span.between]

/-
  A diagnostic is in the file, and its place is known unless
  the text has no tokens.
-/
theorem Locates.place
    {file : Option String}
    {text : String}
    {diagnostic : Diagnostic}
    (hLocates : diagnostic.Locates file text) :
    diagnostic.span.file = file ∧
      (readTokens file text = .ok [] ∨
        diagnostic.span.line ≠ none ∧
          diagnostic.span.column ≠ none) := by
  cases hLocates with
  | stray hCuts hStuck hSpan hNotes =>
      rw [hSpan]
      simp [Span.startingAt]
  | nothing hTokens hSpan hNotes =>
      rw [hSpan]
      exact ⟨rfl, .inl hTokens⟩
  | noTrait _ _ hPoints _ =>
      exact ⟨hPoints.place.1, .inr hPoints.place.2⟩
  | token _ _ _ _ _ _ _ _ hPoints _ =>
      exact ⟨hPoints.place.1, .inr hPoints.place.2⟩
  | endOfInput _ _ _ _ _ _ _ hPoints _ =>
      exact ⟨hPoints.place.1, .inr hPoints.place.2⟩
  | extraneous _ _ _ hPoints _ =>
      exact ⟨hPoints.place.1, .inr hPoints.place.2⟩

end Diagnostic

namespace TraitDecl

variable {file : Option String}
variable {text : String}

/- A stray character is located. -/
theorem locates_of_stray
    {fault : Fault}
    (hTokens : readTokens file text = .error fault) :
    ∃ failure,
      fault = .rejected failure ∧
        (failure.toDiagnostic file).Locates file text := by
  rcases stuck_of_readTokens hTokens with
    ⟨pieces, c, rest, hCuts, hStuck⟩
  rw [readTokens_eq_error file hCuts hStuck] at hTokens
  cases hTokens
  exact ⟨_, rfl,
    .stray hCuts (Lexeme.classify_eq_none_iff.mp hStuck)
      (Span.withFile_eq rfl) rfl⟩

/- What fails inside the trait section is located. -/
theorem locates_of_fails
    {opener : Token}
    {rest : List Token}
    {failure : Failure}
    (hTokens : readTokens file text = .ok (opener :: rest))
    (hText : ofText file text = .error (.rejected failure))
    (hOpens : opener.opens "trait")
    (hFails :
      (Production.ofSection .trait).Fails []
        ⟨[opener], rest⟩ failure) :
    (failure.toDiagnostic file).Locates file text := by
  by_cases hCut : failure.IsCutShort
  · rcases hFails.cutShort_eq hCut with
      ⟨inner, outer, hOpen, hFailure⟩
    have hLast :
        (opener :: rest).getLast? =
          some ((opener :: rest).getLast
            (List.cons_ne_nil _ _)) :=
      List.getLast?_eq_some_getLast _
    rw [List.append_nil, ← List.reverse_cons,
      ← List.getLast?_eq_head?_reverse, hLast] at hFailure
    subst hFailure
    exact .endOfInput hTokens hOpens hOpen
      (Production.getLast?_of_openAfter hOpen)
      (Production.eq_trait_iff_of_openAfter hOpen) hLast hText
      (Diagnostic.pointsTo_of_span hTokens
        (List.getLast_mem _) rfl)
      (Failure.notes_eq rfl)
  · rcases hFails.stops hCut with
      ⟨seen, token, after, inner, outer, hRest, hStops⟩
    have hViable := hStops.viable
    rcases hStops.failing with ⟨cause, hCause, hFailure⟩
    rw [List.append_nil] at hViable hFailure
    dsimp only at hRest hViable
    rw [← List.reverse_cons, ← List.getLast?_eq_head?_reverse]
      at hViable
    subst hRest hFailure
    refine .token hTokens hOpens ?_ hStops.opened
      (Production.getLast?_of_openAfter hStops.opened)
      (Production.eq_trait_iff_of_openAfter hStops.opened)
      hCause hText ?_ (Failure.notes_eq rfl)
    · rw [ofTokens_cons hOpens, hViable]
      rfl
    · refine Diagnostic.pointsTo_of_span hTokens (by simp) ?_
      cases cause with
      | endOfInput last => cases hCause
      | _ =>
          cases hCause
          rfl

/- Every text that declares no trait is located. -/
theorem locates_of_ofText
    {fault : Fault}
    (hText : ofText file text = .error fault) :
    ∃ failure,
      fault = .rejected failure ∧
        (failure.toDiagnostic file).Locates file text := by
  cases hTokens : readTokens file text with
  | error found =>
      rw [ofText, hTokens] at hText
      cases hText
      exact locates_of_stray hTokens
  | ok tokens =>
      have hRead : ofTokens tokens = .error fault := by
        rw [ofText, hTokens] at hText
        exact hText
      rcases refused_of_ofTokens hRead with
        ⟨failure, rfl, hRefused⟩
      refine ⟨failure, rfl, ?_⟩
      cases hRefused with
      | nothing hFault =>
          cases hFault
          refine .nothing hTokens ?_ rfl
          cases file <;> rfl
      | noTrait hOther hFault =>
          cases hFault
          exact .noTrait hTokens hOther
            (Diagnostic.pointsTo_of_span hTokens
              List.mem_cons_self rfl) rfl
      | inside hOpens hFails =>
          exact locates_of_fails hTokens hText hOpens hFails
      | extraneous hOpens hDerives hFault =>
          cases hFault
          exact .extraneous hTokens hOpens hDerives
            (Diagnostic.pointsTo_of_span hTokens (by simp) rfl)
            rfl

/-
  A source gives the declaration of its text, or one diagnostic
  for its file. The diagnostic points to the character or token
  at fault, at a known place unless there are no tokens, and
  notes the productions that are open around the failing one.
-/
theorem ofSource_diagnosis
    (file : Option String)
    (text : String) :
    (∃ decl,
      ofText file text = .ok decl ∧
        ofSource file text = .ok decl) ∨
    (∃ failure diagnostic,
      ofText file text = .error (.rejected failure) ∧
        ofSource file text = .error diagnostic ∧
        diagnostic.message = failure.message ∧
        diagnostic.span.file = file ∧
        diagnostic.Locates file text ∧
        (diagnostic.span.line = none ∨
            diagnostic.span.column = none →
          readTokens file text = .ok [])) := by
  cases hText : ofText file text with
  | ok decl =>
      refine .inl ⟨decl, rfl, ?_⟩
      rw [ofSource, hText]
  | error fault =>
      rcases locates_of_ofText hText with
        ⟨failure, rfl, hLocates⟩
      refine .inr ⟨failure, failure.toDiagnostic file, rfl, ?_,
        rfl, hLocates.place.1, hLocates, ?_⟩
      · rw [ofSource, hText]
        rfl
      · rcases hLocates.place.2 with hNone | ⟨hLine, hColumn⟩
        · exact fun _ => hNone
        · rintro (hUnknown | hUnknown)
          · exact absurd hUnknown hLine
          · exact absurd hUnknown hColumn

/- The second word of a name, inside the trait. -/
example :
    (ofSource none "<trait>\n<name>a b</name></trait>").mapError
        (fun diagnostic =>
          (diagnostic.span.line, diagnostic.span.column,
            diagnostic.notes)) =
      .error (some 2, some 9, ["while parsing `<trait>`"]) := by
  decide +kernel

end TraitDecl

end TraitMarkup
