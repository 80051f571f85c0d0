import TraitMarkup.Proofs.Lexemes

/-
  Tokens in a text that is laid out anew.

  A text is relaid by keeping some of its tokens where they
  touch, by putting blanks where gaps were, and by ending
  early. A token that is cut from the front of a text is cut
  from the front of the relaid text as well: no class that was
  tried before it in vain fits now.

  For most classes this needs no more than that the text is
  loosened. A blank can be the content of a literal, though. A
  quote after `b` or `r` is the start of a token of its own, and
  that token is what excludes a new literal.

  Key definitions include:
    * `Lexeme.IsToken`
    * `Relaid`

  Main declarations:
    * `Relaid.loosened`
    * `Relaid.fits_of_fits`
    * `Relaid.isToken`
    * `Lexeme.classify_blanks`
-/

namespace TraitMarkup

------------------------------------------------------------
-- Lexemes In Front Of A Text
------------------------------------------------------------

namespace Lexeme

/- The text `piece` is cut off as a token before `rest`. -/
def IsToken
    (kind : Kind)
    (piece rest : List Char) : Prop :=
  classify (piece ++ rest) = some (some kind, piece.length)

/- A lexeme is some text in front of the rest. -/
theorem exists_piece
    {text : List Char}
    {kind : Option Kind}
    {n : Nat}
    (hClass : classify text = some (kind, n)) :
    ∃ c piece rest,
      text = c :: piece ++ rest ∧ n = piece.length + 1 := by
  rcases exists_of_classify hClass with
    ⟨matcher, hMember, hSome⟩
  rcases positive_bounded_of_mem hMember with
    ⟨hPositive, hBounded⟩
  have hPos := hPositive hSome
  have hLength := hBounded hSome
  cases text with
  | nil =>
      simp at hLength
      omega
  | cons c text =>
      simp only [List.length_cons] at hLength
      refine ⟨c, text.take (n - 1), text.drop (n - 1), ?_, ?_⟩
      · simp
      · rw [List.length_take]
        omega

/- A lexeme starts with a character of its kind. -/
theorem leads_of_classify
    {c : Char}
    {rest : List Char}
    {kind : Option Kind}
    {n : Nat}
    (hClass : classify (c :: rest) = some (kind, n)) :
    leads kind c := by
  rcases exists_of_classify hClass with
    ⟨matcher, hMember, hSome⟩
  have hFits : matcher.Fits (c :: rest) := by
    simp [Matcher.Fits, hSome]
  rcases starts_of_mem hMember hFits with
    ⟨d, later, hText, hLeads⟩
  cases hText
  exact hLeads

namespace IsToken

variable
  {kind : Kind}
  {piece rest : List Char}

/- A token is taken by the class of its kind. -/
theorem takes
    (hToken : IsToken kind piece rest) :
    kind.matcher.Takes piece rest := by
  rcases exists_of_classify hToken with
    ⟨matcher, hMember, hSome⟩
  rw [← eq_matcher_of_mem hMember kind rfl]
  exact hSome

/- A token has a first character. -/
theorem exists_cons
    (hToken : IsToken kind piece rest) :
    ∃ c more, piece = c :: more := by
  rcases piece with _ | ⟨c, more⟩
  · have hPos := kind.positive_matcher hToken.takes
    simp at hPos
  · exact ⟨c, more, rfl⟩

end IsToken

/- A double quote starts a string with escapes. -/
theorem IsToken.of_doubleQuote
    {kind : Kind}
    {piece rest : List Char}
    (hToken : IsToken kind ('"' :: piece) rest) :
    Matcher.escapedBody.Fits ('"' :: piece ++ rest) := by
  have hLeads := leads_of_classify hToken
  cases kind with
  | string =>
      rcases Matcher.stringLiteral_fits_iff.mp
          hToken.takes.fits with
        (hRaw | hEscaped) | ⟨later, hText, _⟩
      · exact absurd hRaw
          (Matcher.starts_rawBody.not_fits (by decide) _)
      · exact hEscaped
      · cases hText
  | _ => exact absurd hLeads (by decide)

/- A quote starts a character or a lifetime. -/
theorem IsToken.of_quote
    {kind : Kind}
    {piece rest : List Char}
    (hToken : IsToken kind ('\'' :: piece) rest) :
    Matcher.charBody.Fits ('\'' :: piece ++ rest) ∨
      kind = .lifetime := by
  have hLeads := leads_of_classify hToken
  cases kind with
  | char =>
      rcases Matcher.charLiteral_fits_iff.mp
          hToken.takes.fits with
        hPlain | ⟨later, hText, _⟩
      · exact .inl hPlain
      · cases hText
  | lifetime => exact .inr rfl
  | _ => exact absurd hLeads (by decide)

/- A mark of literals with a quote after it is no name. -/
theorem IsToken.of_mark
    {kind : Kind}
    {mark quote : Char}
    {piece rest : List Char}
    (hMark : mark = 'b' ∨ mark = 'r')
    (hQuote : quote = '"' ∨ quote = '\'')
    (hMember : quote ∈ piece)
    (hToken : IsToken kind (mark :: piece) rest) :
    Matcher.charLiteral.Fits (mark :: piece ++ rest) ∨
      Matcher.stringLiteral.Fits (mark :: piece ++ rest) := by
  have hLeads := leads_of_classify hToken
  cases kind with
  | char => exact .inl hToken.takes.fits
  | string => exact .inr hToken.takes.fits
  | ident =>
      have hPart :=
        Matcher.isWordPart_of_ident_takes hToken.takes
          (List.mem_cons_of_mem mark hMember)
      rcases hQuote with rfl | rfl
      all_goals exact absurd hPart (by decide)
  | _ =>
      rcases hMark with rfl | rfl
      all_goals exact absurd hLeads (by decide)

end Lexeme

------------------------------------------------------------
-- Relaid Texts
------------------------------------------------------------

/- The new text has tokens of the old one, laid out anew. -/
inductive Relaid : List Char → List Char → Prop
  /- The new text ends here. -/
  | cut
      (old : List Char) :
      Relaid old []
  /- The rest of the text is kept. -/
  | kept
      (text : List Char) :
      Relaid text text
  | token
      {kind : Kind}
      {piece old new : List Char}
      (hToken : Lexeme.IsToken kind piece old)
      (hRest : Relaid old new) :
      Relaid (piece ++ old) (piece ++ new)
  /- Blanks stand for something, or for nothing. -/
  | gap
      (skipped : List Char)
      {blanks old new : List Char}
      (hSome : blanks ≠ [])
      (hBlanks : ∀ c ∈ blanks, isBlank c)
      (hRest : Relaid old new) :
      Relaid (skipped ++ old) (blanks ++ new)

namespace Relaid

/- A relaid text is loosened. -/
theorem loosened
    {old new : List Char}
    (hRelaid : Relaid old new) :
    Loosened old new := by
  induction hRelaid with
  | cut old => exact .cut old
  | kept text => exact .refl text
  | token hToken hRest ih => exact ih.append _
  | gap skipped hSome hBlanks hRest ih =>
      exact ih.blanks skipped hSome hBlanks

/- What does not start with a blank starts with a token. -/
theorem of_cons
    {c : Char}
    (hSolid : isBlank c = false)
    {old new : List Char}
    (hRelaid : Relaid old (c :: new)) :
    old = c :: new ∨
      ∃ kind piece before after,
        old = c :: piece ++ before ∧
          new = piece ++ after ∧
          Lexeme.IsToken kind (c :: piece) before ∧
          Relaid before after := by
  generalize hNew : c :: new = text at hRelaid
  cases hRelaid with
  | cut old => cases hNew
  | kept text => exact .inl rfl
  | @token kind piece before after hToken hRest =>
      rcases hToken.exists_cons with ⟨d, more, rfl⟩
      cases hNew
      exact .inr ⟨kind, more, before, after, rfl, rfl,
        hToken, hRest⟩
  | @gap skipped blanks before after hSome hBlanks hRest =>
      rcases blanks with _ | ⟨d, blanks⟩
      · contradiction
      · cases hNew
        have hBlank := hBlanks c List.mem_cons_self
        rw [hSolid] at hBlank
        cases hBlank

/- A string in the relaid text is one in the old text. -/
theorem escapedBody_fits
    {old new : List Char}
    (hRelaid : Relaid old new)
    (hFits : Matcher.escapedBody.Fits new) :
    Matcher.escapedBody.Fits old := by
  rcases Matcher.starts_escapedBody hFits with
    ⟨c, rest, rfl, hQuote⟩
  rw [beq_iff_eq] at hQuote
  subst hQuote
  rcases of_cons (by decide) hRelaid with
    rfl | ⟨kind, piece, before, after, rfl, rfl, hToken, _⟩
  · exact hFits
  · exact hToken.of_doubleQuote

/- After an `r`, the quote that ends a string will do. -/
theorem rawBody_fits_after
    {old new : List Char}
    (hRelaid : Relaid old new)
    (hFits : Matcher.rawBody.Fits ('r' :: new)) :
    Matcher.rawBody.Fits ('r' :: old) := by
  rcases Matcher.rawBody_fits_iff.mp hFits with
    ⟨inner, hNew, hQuote⟩
  cases hNew
  rcases of_cons (by decide) hRelaid with
    rfl | ⟨kind, piece, before, after, rfl, rfl, hToken, _⟩
  · exact hFits
  · have hEnd :=
      Matcher.quote_mem_of_escapedBody_fits
        hToken.of_doubleQuote
    exact Matcher.rawBody_fits_iff.mpr ⟨_, rfl, hEnd⟩

/- A raw string in the relaid text is one in the old text. -/
theorem rawBody_fits
    {old new : List Char}
    (hRelaid : Relaid old new)
    (hFits : Matcher.rawBody.Fits new) :
    Matcher.rawBody.Fits old := by
  rcases Matcher.rawBody_fits_iff.mp hFits with
    ⟨inner, rfl, hQuote⟩
  rcases of_cons (by decide) hRelaid with
    rfl | ⟨kind, piece, before, after, rfl, hNew, hToken, hRest⟩
  · exact hFits
  · rcases piece with _ | ⟨c, piece⟩
    · have hAfter : after = '"' :: inner := hNew.symm
      subst hAfter
      exact hRest.rawBody_fits_after hFits
    · cases hNew
      rcases hToken.of_mark (.inr rfl) (.inl rfl)
          List.mem_cons_self with hChar | hString
      · exact absurd hChar
          (Kind.char.starts_matcher.not_fits (by decide) _)
      · rcases Matcher.stringLiteral_fits_iff.mp hString with
          (hRaw | hEscaped) | ⟨later, hText, _⟩
        · exact hRaw
        · exact absurd hEscaped
            (Matcher.starts_escapedBody.not_fits
              (by decide) _)
        · cases hText

/- A character in the relaid text is one in the old text. -/
theorem charBody_fits
    {old new : List Char}
    (hRelaid : Relaid old new)
    (hFits : Matcher.charBody.Fits new) :
    Matcher.charBody.Fits old := by
  rcases Matcher.starts_charBody hFits with
    ⟨c, rest, rfl, hQuote⟩
  rw [beq_iff_eq] at hQuote
  subst hQuote
  rcases of_cons (by decide) hRelaid with
    rfl | ⟨kind, piece, before, after, rfl, rfl, hToken, hRest⟩
  · exact hFits
  · rcases hToken.of_quote with hOld | rfl
    · exact hOld
    · -- A lifetime: only its last quote can be new.
      rcases Matcher.andThen_takes_iff.mp hToken.takes with
        ⟨mark, name, hPiece, hMark, hName⟩
      rw [Matcher.literal_takes_iff.mp hMark] at hPiece
      cases hPiece
      rcases Matcher.andThen_takes_iff.mp hName with
        ⟨first, more, rfl, hFirst, hMore⟩
      rcases Matcher.one_takes_iff.mp hFirst with
        ⟨d, rfl, hStart⟩
      have hNew :
          (Matcher.literal "'").Fits (more ++ after) :=
        (Matcher.charBody_fits_iff hStart).mp hFits
      have hOld :
          (Matcher.literal "'").Fits (more ++ before) :=
        Matcher.reflects_literal (by decide)
          (hRest.loosened.append more) hNew
      exact (Matcher.charBody_fits_iff hStart).mpr hOld

end Relaid

namespace Relaid

variable
  {kind : Kind}
  {piece old new : List Char}

/- A byte string that is a token has its body after `b`. -/
theorem stringBody_fits_of_mark
    (hToken : Lexeme.IsToken kind ('b' :: piece) old)
    (hQuote : '"' ∈ piece)
    (hNotChar : ¬ Matcher.charBody.Fits (piece ++ old)) :
    Matcher.rawBody.Fits (piece ++ old) ∨
      Matcher.escapedBody.Fits (piece ++ old) := by
  rcases hToken.of_mark (.inl rfl) (.inl rfl) hQuote with
    hChar | hString
  · rcases Matcher.charLiteral_fits_iff.mp hChar with
      hPlain | ⟨rest, hText, hMarked⟩
    · exact absurd hPlain
        (Matcher.starts_charBody.not_fits (by decide) _)
    · cases hText
      exact absurd hMarked hNotChar
  · rcases Matcher.stringLiteral_fits_iff.mp hString with
      (hRaw | hEscaped) | ⟨rest, hText, hMarked⟩
    · exact absurd hRaw
        (Matcher.starts_rawBody.not_fits (by decide) _)
    · exact absurd hEscaped
        (Matcher.starts_escapedBody.not_fits (by decide) _)
    · cases hText
      exact hMarked

/- A byte that is a token has its body after `b`. -/
theorem charBody_fits_of_mark
    (hToken : Lexeme.IsToken kind ('b' :: '\'' :: piece) old) :
    Matcher.charBody.Fits ('\'' :: piece ++ old) := by
  rcases hToken.of_mark (.inl rfl) (.inr rfl)
      List.mem_cons_self with hChar | hString
  · rcases Matcher.charLiteral_fits_iff.mp hChar with
      hPlain | ⟨rest, hText, hMarked⟩
    · exact absurd hPlain
        (Matcher.starts_charBody.not_fits (by decide) _)
    · cases hText
      exact hMarked
  · rcases Matcher.stringLiteral_fits_iff.mp hString with
      (hRaw | hEscaped) | ⟨rest, hText, hRaw | hEscaped⟩
    · exact absurd hRaw
        (Matcher.starts_rawBody.not_fits (by decide) _)
    · exact absurd hEscaped
        (Matcher.starts_escapedBody.not_fits (by decide) _)
    · cases hText
      exact absurd hRaw
        (Matcher.starts_rawBody.not_fits (by decide) _)
    · cases hText
      exact absurd hEscaped
        (Matcher.starts_escapedBody.not_fits (by decide) _)

/- No string comes up where a token was. -/
theorem stringLiteral_fits
    (hToken : Lexeme.IsToken kind piece old)
    (hRest : Relaid old new)
    (hFits : Matcher.stringLiteral.Fits (piece ++ new)) :
    Matcher.stringLiteral.Fits (piece ++ old) := by
  rw [Matcher.stringLiteral_fits_iff] at hFits ⊢
  rcases hFits with hBody | ⟨rest, hText, hBody⟩
  · left
    have hWhole := Relaid.token hToken hRest
    exact hBody.imp hWhole.rawBody_fits hWhole.escapedBody_fits
  · right
    rcases hToken.exists_cons with ⟨c, more, rfl⟩
    cases hText
    refine ⟨more ++ old, rfl, ?_⟩
    rcases more with _ | ⟨d, more⟩
    · exact hBody.imp hRest.rawBody_fits hRest.escapedBody_fits
    · rcases hBody with hRaw | hEscaped
      · rcases Matcher.rawBody_fits_iff.mp hRaw with
          ⟨inner, hText, _⟩
        have hParts : d = 'r' ∧ more ++ new = '"' :: inner :=
          List.cons.inj hText
        rcases hParts with ⟨rfl, hMore⟩
        rcases more with _ | ⟨e, more⟩
        · -- The token is `br`, and the quote is the next one.
          exact .inl (hRest.rawBody_fits_after hRaw)
        · cases hMore
          apply stringBody_fits_of_mark hToken (by simp)
          exact Matcher.starts_charBody.not_fits (by decide) _
      · rcases Matcher.starts_escapedBody hEscaped with
          ⟨e, later, hText, hQuote⟩
        cases hText
        rw [beq_iff_eq] at hQuote
        subst hQuote
        apply stringBody_fits_of_mark hToken (by simp)
        exact Matcher.starts_charBody.not_fits (by decide) _

/- No character literal comes up where a token was. -/
theorem charLiteral_fits
    (hToken : Lexeme.IsToken kind piece old)
    (hRest : Relaid old new)
    (hFits : Matcher.charLiteral.Fits (piece ++ new)) :
    Matcher.charLiteral.Fits (piece ++ old) := by
  rw [Matcher.charLiteral_fits_iff] at hFits ⊢
  rcases hFits with hBody | ⟨rest, hText, hBody⟩
  · left
    exact (Relaid.token hToken hRest).charBody_fits hBody
  · right
    rcases hToken.exists_cons with ⟨c, more, rfl⟩
    cases hText
    refine ⟨more ++ old, rfl, ?_⟩
    rcases more with _ | ⟨d, more⟩
    · exact hRest.charBody_fits hBody
    · rcases Matcher.starts_charBody hBody with
        ⟨e, later, hText, hQuote⟩
      cases hText
      rw [beq_iff_eq] at hQuote
      subst hQuote
      exact charBody_fits_of_mark hToken

/- No class comes to fit where a token was. -/
theorem fits_of_fits
    (hToken : Lexeme.IsToken kind piece old)
    (hRest : Relaid old new)
    {other : Option Kind}
    {matcher : Matcher}
    (hMember : (other, matcher) ∈ Lexeme.classes)
    (hFits : matcher.Fits (piece ++ new)) :
    matcher.Fits (piece ++ old) := by
  have hLoose := hRest.loosened.append piece
  revert hFits
  apply Lexeme.forall_classes
    (motive := fun _ matcher =>
      matcher.Fits (piece ++ new) →
        matcher.Fits (piece ++ old)) _ _ _ _ hMember
  · intro tried
    cases tried with
    | ident => exact Matcher.reflects_ident hLoose
    | lifetime => exact Matcher.reflects_lifetime hLoose
    | string => exact stringLiteral_fits hToken hRest
    | char => exact charLiteral_fits hToken hRest
    | number => exact Matcher.reflects_number hLoose
    | punct => exact Matcher.reflects_punct hLoose
    | openTag => exact Matcher.reflects_openTag hLoose
    | closeTag => exact Matcher.reflects_closeTag hLoose
    | emptyTag => exact Matcher.reflects_emptyTag hLoose
  · exact Matcher.reflects_blockComment hLoose
  · exact Matcher.reflects_lineComment hLoose
  · -- Blanks are recognized by the first character.
    rcases hToken.exists_cons with ⟨c, more, rfl⟩
    simp [Matcher.blanks_fits_iff]

end Relaid

------------------------------------------------------------
-- Classes Of Relaid Texts
------------------------------------------------------------

namespace Lexeme

/- The first class that fits stays the first that fits. -/
theorem findSome?_eq_of_fits
    {entries : List (Option Kind × Matcher)}
    {kind : Option Kind}
    {piece old new : List Char}
    (hFits :
      ∀ entry ∈ entries,
        entry.2.Fits (piece ++ new) →
          entry.2.Fits (piece ++ old))
    (hTakes :
      ∀ entry ∈ entries,
        entry.1 = kind →
          entry.2.Takes piece old →
            entry.2.Takes piece new)
    (hFirst :
      entries.findSome?
        (fun entry => (entry.2 (piece ++ old)).map (entry.1, ·)) =
          some (kind, piece.length)) :
    entries.findSome?
      (fun entry => (entry.2 (piece ++ new)).map (entry.1, ·)) =
        some (kind, piece.length) := by
  induction entries with
  | nil => cases hFirst
  | cons entry entries ih =>
      rw [List.findSome?_cons] at hFirst ⊢
      cases hOld : entry.2 (piece ++ old) with
      | none =>
          have hNew : entry.2 (piece ++ new) = none := by
            rw [← Matcher.not_fits_iff] at hOld ⊢
            exact fun hNew =>
              hOld (hFits entry List.mem_cons_self hNew)
          simp only [hOld, Option.map_none] at hFirst
          simp only [hNew, Option.map_none]
          apply ih _ _ hFirst
          · intro other hMember
            exact hFits other (List.mem_cons_of_mem _ hMember)
          · intro other hMember
            exact hTakes other (List.mem_cons_of_mem _ hMember)
      | some n =>
          simp only [hOld, Option.map_some, Option.some.injEq,
            Prod.mk.injEq] at hFirst
          rcases hFirst with ⟨hKind, hLength⟩
          subst hLength
          have hNew : entry.2 (piece ++ new) =
              some piece.length :=
            hTakes entry List.mem_cons_self hKind hOld
          simp only [hNew, Option.map_some, hKind]

/- No token starts with a blank. -/
theorem isSolidClass_leads
    (kind : Kind) :
    IsSolidClass (leads (some kind)) := by
  apply isSolidClass_of_blanks
  cases kind <;> decide

/- Only blanks fit a text that starts with a blank. -/
theorem eq_blanks_of_fits
    {kind : Option Kind}
    {matcher : Matcher}
    (hMember : (kind, matcher) ∈ classes)
    {c : Char}
    (hBlank : isBlank c)
    {rest : List Char}
    (hFits : matcher.Fits (c :: rest)) :
    kind = none ∧ matcher = Matcher.blanks := by
  have hNotSlash : (c == '/') = false := by
    rw [beq_eq_false_iff_ne]
    rintro rfl
    cases hBlank
  revert hFits
  apply forall_classes
    (motive := fun kind matcher =>
      matcher.Fits (c :: rest) →
        kind = none ∧ matcher = Matcher.blanks)
    _ _ _ _ hMember
  · intro token hFits
    rcases token.starts_matcher hFits with
      ⟨d, later, hText, hLeads⟩
    cases hText
    rw [isSolidClass_leads token c hLeads] at hBlank
    cases hBlank
  · have hStarts : Matcher.blockComment.Starts (· == '/') :=
      (Matcher.starts_literal rfl).andThen _
    exact fun hFits =>
      absurd hFits (hStarts.not_fits hNotSlash rest)
  · have hStarts : Matcher.lineComment.Starts (· == '/') :=
      (Matcher.starts_literal rfl).andThen _
    exact fun hFits =>
      absurd hFits (hStarts.not_fits hNotSlash rest)
  · exact fun _ => ⟨rfl, rfl⟩

/- Blanks in front of a text are one gap. -/
theorem classify_blanks
    {blanks rest : List Char}
    (hSome : blanks ≠ [])
    (hBlanks : ∀ c ∈ blanks, isBlank c)
    (hRest : StartsOutside isBlank rest) :
    classify (blanks ++ rest) =
      some (none, blanks.length) := by
  have hTakes : Matcher.blanks.Takes blanks rest :=
    Matcher.blanks_takes_iff.mpr ⟨hSome, hBlanks, hRest⟩
  have hFound : (classify (blanks ++ rest)).isSome := by
    apply List.findSome?_isSome_iff.mpr
    refine ⟨(none, Matcher.blanks), by simp [classes], ?_⟩
    rw [Option.isSome_map]
    exact hTakes.fits
  rcases Option.isSome_iff_exists.mp hFound with
    ⟨⟨kind, n⟩, hClass⟩
  rcases exists_of_classify hClass with
    ⟨matcher, hMember, hAnswer⟩
  rcases blanks with _ | ⟨c, more⟩
  · contradiction
  have hFits : matcher.Fits (c :: (more ++ rest)) := by
    simpa [Matcher.Fits] using
      Option.isSome_iff_exists.mpr ⟨n, hAnswer⟩
  rcases eq_blanks_of_fits hMember
      (hBlanks c List.mem_cons_self) hFits with
    ⟨rfl, rfl⟩
  rw [hTakes] at hAnswer
  cases hAnswer
  exact hClass

end Lexeme

/- A token stays a token before a relaid text. -/
theorem Relaid.isToken
    {kind : Kind}
    {piece old new : List Char}
    (hToken : Lexeme.IsToken kind piece old)
    (hRest : Relaid old new) :
    Lexeme.IsToken kind piece new := by
  apply Lexeme.findSome?_eq_of_fits _ _ hToken
  · rintro ⟨other, matcher⟩ hMember hFits
    exact fits_of_fits hToken hRest hMember hFits
  · rintro ⟨other, matcher⟩ hMember hKind hTakes
    have hMatcher :=
      Lexeme.eq_matcher_of_mem hMember kind hKind
    subst hMatcher
    exact kind.keeps_matcher hRest.loosened hTakes

end TraitMarkup
