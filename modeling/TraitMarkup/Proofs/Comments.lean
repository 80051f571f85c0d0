import TraitMarkup.Proofs.Partition
import TraitMarkup.Proofs.Weaving

/-
  Comments in printed text.

  A slash in front of another slash is the start of a comment
  wherever a text is cut, so no two such tokens ever touch. A
  slash in front of a star is the start of a comment as well, but
  only if the comment ends. Without an end the two are tokens,
  and they touch.

  The printer adds nothing to this: a printed trait has no pair
  of slashes outside of literals, and it has a slash in front of
  a star only where a span has it.

  Key definitions include:
    * `Matcher.Quiet`
    * `Token.IsLexed`
    * `Token.Meets`

  Main declarations:
    * `Code.clear_cells_iff`
    * `Lexeme.IsToken.vain`
    * `Token.Partition.isChain`
    * `TraitDecl.render_comments`
-/

namespace TraitMarkup

------------------------------------------------------------
-- Characters Of A Token
------------------------------------------------------------

/- A class without slash and star. -/
theorem isCommentMark_of_class
    {belongs : Char → Bool}
    (hSlash : belongs '/' = false)
    (hStar : belongs '*' = false)
    {c : Char}
    (hClass : belongs c) :
    isCommentMark c = false := by
  simp only [isCommentMark, Bool.decide_or, Bool.or_eq_false_iff,
    decide_eq_false_iff_not]
  constructor
  · rintro rfl
    rw [hSlash] at hClass
    cases hClass
  · rintro rfl
    rw [hStar] at hClass
    cases hClass

/- A part of a word is neither slash nor star. -/
theorem isCommentMark_of_isWordPart
    {c : Char}
    (hPart : isWordPart c) :
    isCommentMark c = false :=
  isCommentMark_of_class rfl rfl hPart

namespace Matcher

/- What is taken has no slash and no star. -/
def Quiet
    (matcher : Matcher) : Prop :=
  ∀ front rest : List Char,
    matcher.Takes front rest →
      ∀ c ∈ front, isCommentMark c = false

theorem quiet_one
    {belongs : Char → Bool}
    (hSlash : belongs '/' = false)
    (hStar : belongs '*' = false) :
    (one belongs).Quiet := by
  intro front rest hTakes
  rcases one_takes_iff.mp hTakes with ⟨c, rfl, hClass⟩
  exact List.forall_mem_singleton.mpr
    (isCommentMark_of_class hSlash hStar hClass)

theorem quiet_run
    {belongs : Char → Bool}
    (hSlash : belongs '/' = false)
    (hStar : belongs '*' = false) :
    (run belongs).Quiet := by
  intro front rest hTakes c hMember
  exact isCommentMark_of_class hSlash hStar
    ((run_takes_iff.mp hTakes).1 c hMember)

theorem quiet_literal
    {word : String}
    (hWord : IsQuiet isCommentMark word) :
    (literal word).Quiet := by
  intro front rest hTakes
  rw [literal_takes_iff.mp hTakes]
  exact hWord

theorem Quiet.andThen
    {first second : Matcher}
    (hFirst : first.Quiet)
    (hSecond : second.Quiet) :
    (first.andThen second).Quiet := by
  intro front rest hTakes
  rcases andThen_takes_iff.mp hTakes with
    ⟨left, right, rfl, hLeft, hRight⟩
  exact List.forall_mem_append.mpr
    ⟨hFirst _ _ hLeft, hSecond _ _ hRight⟩

theorem Quiet.orElse
    {first second : Matcher}
    (hFirst : first.Quiet)
    (hSecond : second.Quiet) :
    (first.orElse second).Quiet := by
  intro front rest hTakes
  rcases orElse_takes_iff.mp hTakes with hTaken | ⟨_, hTaken⟩
  · exact hFirst _ _ hTaken
  · exact hSecond _ _ hTaken

theorem Quiet.optional
    {matcher : Matcher}
    (hQuiet : matcher.Quiet) :
    (optional matcher).Quiet := by
  intro front rest hTakes
  rcases optional_takes_iff.mp hTakes with hTaken | ⟨_, rfl⟩
  · exact hQuiet _ _ hTaken
  · exact List.forall_mem_nil _

theorem quiet_word : word.Quiet :=
  (quiet_one rfl rfl).andThen (quiet_run rfl rfl)

theorem quiet_ident : ident.Quiet :=
  ((quiet_literal (by decide)).andThen quiet_word).orElse
    quiet_word

theorem quiet_lifetime : lifetime.Quiet :=
  (quiet_literal (by decide)).andThen quiet_word

theorem quiet_digits : digits.Quiet :=
  (quiet_one rfl rfl).andThen (quiet_run rfl rfl)

theorem quiet_number : number.Quiet := by
  have hFraction : fraction.Quiet :=
    (quiet_literal (by decide)).andThen quiet_digits
  have hExponent : exponent.Quiet :=
    (quiet_one rfl rfl).andThen
      ((quiet_one rfl rfl).optional.andThen
        ((quiet_one rfl rfl).andThen (quiet_run rfl rfl)))
  exact quiet_digits.andThen
    (hFraction.optional.andThen
      (hExponent.optional.andThen (quiet_run rfl rfl)))

/- The name of a tag goes on with words and hyphens. -/
theorem quiet_of_tagNameRest
    {name : List Char}
    (hName : tagNameRest name = name.length) :
    ∀ c ∈ name, isCommentMark c = false := by
  fun_induction tagNameRest name with
  | case1 => exact List.forall_mem_nil _
  | case2 c hWord =>
      exact List.forall_mem_singleton.mpr
        (isCommentMark_of_isWordPart hWord)
  | case3 c hWord => simp at hName
  | case4 c d name hWord ih =>
      exact List.forall_mem_cons.mpr
        ⟨isCommentMark_of_isWordPart hWord,
          ih (by simp at hName ⊢; omega)⟩
  | case5 c d name hWord hHyphen ih =>
      simp only [Bool.and_eq_true, beq_iff_eq] at hHyphen
      refine List.forall_mem_cons.mpr ⟨?_, ?_⟩
      · rw [hHyphen.1]
        decide
      · exact List.forall_mem_cons.mpr
          ⟨isCommentMark_of_isWordPart hHyphen.2,
            ih (by simp at hName ⊢; omega)⟩
  | case6 c d name hWord hHyphen => simp at hName

/- A tag is a quiet name between two fixed texts. -/
theorem exists_of_tag_takes
    {opening closing : String}
    {c : Char}
    {more : List Char}
    (hClosing : closing.toList = c :: more)
    (hWord : isWordPart c = false)
    (hHyphen : c ≠ '-')
    {front rest : List Char}
    (hTakes : (tag opening closing).Takes front rest) :
    ∃ first name,
      front =
        opening.toList ++ (first :: name ++ closing.toList) ∧
        ∀ d ∈ first :: name, isCommentMark d = false := by
  rcases (tag_takes_iff hClosing hWord hHyphen).mp hTakes with
    ⟨first, name, hFront, hFirst, hName⟩
  refine ⟨first, name, hFront, ?_⟩
  exact List.forall_mem_cons.mpr
    ⟨isCommentMark_of_class rfl rfl hFirst,
      quiet_of_tagNameRest hName⟩

/- What is taken ends with the character. -/
def Ends
    (matcher : Matcher)
    (c : Char) : Prop :=
  ∀ front rest : List Char,
    matcher.Takes front rest → front.getLast? = some c

theorem ends_literal
    {word : String}
    {c : Char}
    (hWord : word.toList.getLast? = some c) :
    (literal word).Ends c := by
  intro front rest hTakes
  rw [literal_takes_iff.mp hTakes]
  exact hWord

theorem Ends.after
    {second : Matcher}
    {c : Char}
    (hSecond : second.Ends c)
    (first : Matcher) :
    (first.andThen second).Ends c := by
  intro front rest hTakes
  rcases andThen_takes_iff.mp hTakes with
    ⟨left, right, rfl, _, hRight⟩
  rw [List.getLast?_append, hSecond _ _ hRight]
  rfl

theorem Ends.orElse
    {first second : Matcher}
    {c : Char}
    (hFirst : first.Ends c)
    (hSecond : second.Ends c) :
    (first.orElse second).Ends c := by
  intro front rest hTakes
  rcases orElse_takes_iff.mp hTakes with hTaken | ⟨_, hTaken⟩
  · exact hFirst _ _ hTaken
  · exact hSecond _ _ hTaken

theorem ends_stringRest : Ends stringRest '"' := by
  intro front rest hTakes
  unfold Takes at hTakes
  fun_induction stringRest front with
  | case1 =>
      have hPositive := positive_stringRest hTakes
      simp at hPositive
  | case2 c hQuote =>
      rw [beq_iff_eq.mp hQuote]
      rfl
  | case3 c hQuote =>
      have hMore : stringRest rest ≠ some 0 := fun hNone =>
        absurd (positive_stringRest hNone) (by simp)
      grind [stringRest_cons, Option.map_eq_some_iff]
  | _ => grind [stringRest_cons, Option.map_eq_some_iff]

theorem ends_stringLiteral : stringLiteral.Ends '"' := by
  have hRaw : rawBody.Ends '"' :=
    ((ends_literal rfl).after _).after _
  have hEscaped : escapedBody.Ends '"' :=
    ends_stringRest.after _
  exact (hRaw.after byteMark).orElse (hEscaped.after byteMark)

/- What the first of several matchers takes, one of them does. -/
theorem exists_of_firstOf_takes
    {matchers : List Matcher}
    {front rest : List Char}
    (hTakes : (firstOf matchers).Takes front rest) :
    ∃ matcher ∈ matchers, matcher.Takes front rest := by
  induction matchers with
  | nil => cases hTakes
  | cons matcher matchers ih =>
      rcases orElse_takes_iff.mp hTakes with
        hTaken | ⟨_, hTaken⟩
      · exact ⟨matcher, List.mem_cons_self, hTaken⟩
      · rcases ih hTaken with ⟨other, hMember, hOther⟩
        exact ⟨other, List.mem_cons_of_mem _ hMember, hOther⟩

theorem ends_charLiteral : charLiteral.Ends '\'' := by
  have hQuote : (literal "'").Ends '\'' := ends_literal rfl
  have hPart : charPart.Ends '\'' := by
    intro front rest hTakes
    rcases exists_of_firstOf_takes hTakes with
      ⟨matcher, hMember, hTaken⟩
    simp only [List.mem_cons, List.not_mem_nil, or_false]
      at hMember
    rcases hMember with rfl | rfl | rfl
    · exact hQuote.after codePoint _ _ hTaken
    · exact hQuote.after escape _ _ hTaken
    · exact hQuote.after plainChar _ _ hTaken
  exact (hPart.after _).after _

/- A mark is one of the long ones, or a single character. -/
theorem exists_of_punct_takes
    {front rest : List Char}
    (hTakes : punct.Takes front rest) :
    (∃ word ∈ longMarks, front = word.toList) ∨
      ∃ c, front = [c] := by
  rcases orElse_takes_iff.mp hTakes with hLong | ⟨_, hShort⟩
  · rcases exists_of_firstOf_takes hLong with
      ⟨matcher, hMember, hTaken⟩
    rcases List.mem_map.mp hMember with ⟨word, hWord, rfl⟩
    exact .inl ⟨word, hWord, literal_takes_iff.mp hTaken⟩
  · rcases one_takes_iff.mp hShort with ⟨c, rfl, _⟩
    exact .inr ⟨c, rfl⟩

end Matcher

------------------------------------------------------------
-- Slashes And Stars In A Token
------------------------------------------------------------

/- What tokens look like, as far as comments are concerned. -/
inductive Kind.Shape
    (kind : Kind) :
    List Char → Prop
  | quiet
      {piece : List Char}
      (hQuiet : ∀ c ∈ piece, isCommentMark c = false) :
      Shape kind piece
  | literal
      {piece : List Char}
      (hKind : kind = .string ∨ kind = .char)
      (hLast : piece.getLast? ≠ some '/') :
      Shape kind piece
  | tag
      {opening closing : String}
      {c : Char}
      {name : List Char}
      (hTag :
        opening = "</" ∧ closing = ">" ∨
          opening = "<" ∧ closing = "/>")
      (hName : ∀ d ∈ c :: name, isCommentMark d = false) :
      Shape kind
        (opening.toList ++ (c :: name ++ closing.toList))
  | mark
      {word : String}
      (hKind : kind = .punct)
      (hWord : word ∈ longMarks) :
      Shape kind word.toList
  | single
      (hKind : kind = .punct)
      (c : Char) :
      Shape kind [c]

/- The shapes of the kinds. -/
theorem Kind.shape_of_takes
    {kind : Kind}
    {piece rest : List Char}
    (hTakes : kind.matcher.Takes piece rest) :
    kind.Shape piece := by
  cases kind with
  | ident => exact .quiet (Matcher.quiet_ident _ _ hTakes)
  | lifetime => exact .quiet (Matcher.quiet_lifetime _ _ hTakes)
  | number => exact .quiet (Matcher.quiet_number _ _ hTakes)
  | string =>
      refine .literal (.inl rfl) ?_
      rw [Matcher.ends_stringLiteral _ _ hTakes]
      decide
  | char =>
      refine .literal (.inr rfl) ?_
      rw [Matcher.ends_charLiteral _ _ hTakes]
      decide
  | punct =>
      rcases Matcher.exists_of_punct_takes hTakes with
        ⟨word, hWord, rfl⟩ | ⟨c, rfl⟩
      · exact .mark rfl hWord
      · exact .single rfl c
  | openTag =>
      rcases Matcher.exists_of_tag_takes rfl rfl (by decide)
          hTakes with
        ⟨c, name, rfl, hName⟩
      have hOpening : IsQuiet isCommentMark "<" := by
        decide
      have hClosing : IsQuiet isCommentMark ">" := by
        decide
      refine .quiet ?_
      simp only [List.forall_mem_append]
      exact ⟨hOpening, hName, hClosing⟩
  | closeTag =>
      rcases Matcher.exists_of_tag_takes rfl rfl (by decide)
          hTakes with
        ⟨c, name, rfl, hName⟩
      exact .tag (.inl ⟨rfl, rfl⟩) hName
  | emptyTag =>
      rcases Matcher.exists_of_tag_takes rfl rfl (by decide)
          hTakes with
        ⟨c, name, rfl, hName⟩
      exact .tag (.inr ⟨rfl, rfl⟩) hName

/- A slash in front of a quiet character is no comment mark. -/
theorem Cell.clear_map
    {second : Char}
    (hMark : isCommentMark second)
    {chars : List Char}
    (hChars :
      chars.IsChain fun left right =>
        left = '/' → isCommentMark right = false)
    (isLiteral : Bool) :
    Clear second (chars.map (⟨·, isLiteral⟩)) := by
  rw [Clear, List.isChain_map]
  refine hChars.imp ?_
  rintro left right hPair hSlash rfl
  have hQuiet := hPair hSlash
  rw [hMark] at hQuiet
  cases hQuiet

namespace Kind.Shape

variable
  {kind : Kind}
  {piece : List Char}

/- Only a slash ends with a slash. -/
theorem eq_slash
    (hShape : kind.Shape piece)
    (hLast : piece.getLast? = some '/') :
    kind = .punct ∧ piece = ['/'] := by
  cases hShape with
  | quiet hQuiet =>
      have hSlash := hQuiet '/' (List.mem_of_getLast? hLast)
      exact absurd hSlash (by decide)
  | literal hKind hOther => exact absurd hLast hOther
  | @tag opening closing c name hTag hName =>
      have hEnd : closing.toList.getLast? = some '>' := by
        rcases hTag with ⟨_, rfl⟩ | ⟨_, rfl⟩
        · rfl
        · rfl
      rw [← List.append_assoc, List.getLast?_append, hEnd]
        at hLast
      cases hLast
  | mark hKind hWord =>
      have hMarks :
          ∀ word ∈ longMarks,
            word.toList.getLast? ≠ some '/' := by
        decide
      exact absurd hLast (hMarks _ hWord)
  | single hKind c =>
      cases hLast
      exact ⟨hKind, rfl⟩

/- No comment mark stands inside a token, but for literals. -/
theorem clear
    (hShape : kind.Shape piece)
    {isLiteral : Bool}
    (hLiteral :
      kind = .string ∨ kind = .char → isLiteral = true)
    {second : Char}
    (hMark : isCommentMark second) :
    Cell.Clear second (piece.map (⟨·, isLiteral⟩)) := by
  have hQuietCells :
      ∀ {chars : List Char},
        (∀ c ∈ chars, isCommentMark c = false) →
          ∀ cell ∈ chars.map (Cell.mk · isLiteral),
            isCommentMark cell.char = false := by
    intro chars hChars cell hCell
    rcases List.mem_map.mp hCell with ⟨c, hMember, rfl⟩
    exact hChars c hMember
  cases hShape with
  | quiet hQuiet =>
      rw [← List.append_nil (List.map _ _),
        Cell.clear_append_left_iff (hQuietCells hQuiet)]
      exact .nil
  | literal hKind hOther =>
      rw [hLiteral hKind, Cell.Clear, List.isChain_map,
        List.isChain_iff_forall_rel_of_append_cons_cons]
      intro left right before after _ _ _
      exact ⟨rfl, rfl⟩
  | @tag opening closing c name hTag hName =>
      have hFirst := List.forall_mem_cons.mp hName
      rw [List.map_append, List.map_append,
        Cell.clear_append_iff hMark,
        Cell.clear_append_left_iff (hQuietCells hName)]
      · rcases hTag with ⟨rfl, rfl⟩ | ⟨rfl, rfl⟩
        · exact ⟨Cell.clear_map hMark (by decide) _,
            Cell.clear_map hMark (by decide) _⟩
        · exact ⟨Cell.clear_map hMark (by decide) _,
            Cell.clear_map hMark (by decide) _⟩
      · rintro cell ⟨⟩
        exact hFirst.1
  | @mark word hKind hWord =>
      have hMarks :
          ∀ word ∈ longMarks,
            word.toList.IsChain fun left right =>
              left = '/' → isCommentMark right = false := by
        decide
      exact Cell.clear_map hMark (hMarks word hWord) _
  | single hKind c => exact List.isChain_singleton _

end Kind.Shape

namespace Token

/- The token is cut off in front of some text. -/
def IsLexed
    (token : Token) : Prop :=
  ∃ rest, Lexeme.IsToken token.kind token.text.toList rest

namespace IsLexed

variable {token : Token}

/- Only punctuation starts with a slash or a star. -/
theorem kind_eq_punct
    (hLexed : token.IsLexed)
    {c : Char}
    (hMark : isCommentMark c)
    (hFirst : token.text.toList.head? = some c) :
    token.kind = .punct := by
  rcases hLexed with ⟨rest, hToken⟩
  rcases hToken.exists_cons with ⟨d, more, hText⟩
  rw [hText, List.head?_cons, Option.some.injEq] at hFirst
  rw [hText, hFirst] at hToken
  have hLeads := Lexeme.leads_of_classify hToken
  have hOnly :
      ∀ kind : Kind,
        Lexeme.leads (some kind) c → kind = .punct := by
    simp only [isCommentMark, Bool.decide_or, Bool.or_eq_true,
      decide_eq_true_eq] at hMark
    rcases hMark with rfl | rfl
    · intro kind
      cases kind <;> decide
    · intro kind
      cases kind <;> decide
  exact hOnly _ hLeads

/- A token has characters. -/
theorem cells_ne_nil
    (hLexed : token.IsLexed) :
    token.cells ≠ [] := by
  rcases hLexed with ⟨rest, hToken⟩
  rcases hToken.exists_cons with ⟨c, more, hText⟩
  simp [cells, hText]

/- The shape of a token. -/
theorem shape
    (hLexed : token.IsLexed) :
    token.kind.Shape token.text.toList := by
  rcases hLexed with ⟨rest, hToken⟩
  exact Kind.shape_of_takes hToken.takes

/- No comment mark stands inside a token, but for literals. -/
theorem clear_cells
    (hLexed : token.IsLexed)
    {second : Char}
    (hMark : isCommentMark second) :
    Cell.Clear second token.cells := by
  refine hLexed.shape.clear ?_ hMark
  intro hKind
  simpa [isLiteral] using hKind

end IsLexed

------------------------------------------------------------
-- Tokens That Touch
------------------------------------------------------------

/- A slash, and right behind it a mark that starts like this. -/
def Meets
    (second : Char)
    (left right : Token) : Prop :=
  left.kind = .punct ∧ left.text = "/" ∧
    right.kind = .punct ∧
    right.text.toList.head? = some second ∧
    right.spaced = false

/- Two tokens that touch are clear if they do not meet. -/
theorem clear_touching_iff
    {left right : Token}
    (hLeft : left.IsLexed)
    (hRight : right.IsLexed)
    (hTouch : right.spaced = false)
    {second : Char}
    (hMark : isCommentMark second) :
    (∀ last ∈ left.cells.getLast?,
      ∀ first ∈ right.cells.head?,
        last.char = '/' → first.char = second →
          last.isLiteral ∧ first.isLiteral) ↔
      ¬ Meets second left right := by
  constructor
  · rintro hPairs ⟨hKind, hText, hOther, hFirst, _⟩
    have hBoth :=
      hPairs ⟨'/', left.isLiteral⟩ (by simp [cells, hText])
        ⟨second, right.isLiteral⟩ (by simp [cells, hFirst])
        rfl rfl
    simp [isLiteral, hKind] at hBoth
  · intro hApart last hLast first hFirst hSlash hSecond
    rw [cells, List.getLast?_map] at hLast
    rw [cells, List.head?_map] at hFirst
    rcases Option.map_eq_some_iff.mp hLast with ⟨c, hEnd, rfl⟩
    rcases Option.map_eq_some_iff.mp hFirst with
      ⟨d, hStart, rfl⟩
    cases hSlash
    cases hSecond
    rcases hLeft.shape.eq_slash hEnd with ⟨hKind, hText⟩
    refine absurd ⟨hKind, ?_, ?_, hStart, hTouch⟩ hApart
    · exact String.toList_inj.mp hText
    · exact hRight.kind_eq_punct hMark hStart

end Token

/- A span is clear if no two of its tokens meet. -/
theorem Code.clear_cells_iff
    {code : Code}
    (hLexed : ∀ token ∈ code, token.IsLexed)
    {second : Char}
    (hMark : isCommentMark second) :
    Cell.Clear second code.cells ↔
      code.IsChain fun left right =>
        ¬ Token.Meets second left right := by
  induction code with
  | nil => exact iff_of_true .nil .nil
  | cons token rest ih =>
      rw [List.forall_mem_cons] at hLexed
      have hToken := hLexed.1.clear_cells hMark
      have hRest := ih hLexed.2
      cases rest with
      | nil =>
          simpa [cells] using hToken
      | cons next rest =>
          have hNext := hLexed.2 next List.mem_cons_self
          rw [cells_cons_cons, List.isChain_cons_cons, ← hRest]
          cases hSpaced : next.spaced with
          | true =>
              -- A blank stands between the two.
              have hGap :
                  next.gapCells = [⟨' ', false⟩] := by
                simp [Token.gapCells, hSpaced, Cell.ofWord]
              have hApart :
                  ¬ Token.Meets second token next := by
                simp [Token.Meets, hSpaced]
              rw [hGap, Cell.clear_append_iff hMark,
                Cell.clear_append_left_iff]
              · simp [hToken, hApart]
              · decide
              · rintro cell ⟨⟩
                decide
          | false =>
              have hGap : next.gapCells = [] := by
                simp [Token.gapCells, hSpaced]
              have hHead :
                  (cells (next :: rest)).head? =
                    next.cells.head? :=
                List.head?_append_of_ne_nil _
                  hNext.cells_ne_nil
              rw [hGap, List.nil_append, Cell.Clear,
                List.isChain_append, hHead,
                Token.clear_touching_iff hLexed.1 hNext hSpaced
                  hMark]
              exact ⟨fun h => ⟨h.2.2, h.2.1⟩,
                fun h => ⟨hToken, h.2, h.1⟩⟩

------------------------------------------------------------
-- Slashes And Stars In A Text
------------------------------------------------------------

/-
  Every class of gaps is tried before punctuation. Where a mark
  is cut off, none of them fits.
-/
theorem Lexeme.IsToken.vain
    {piece rest : List Char}
    (hToken : IsToken .punct piece rest)
    (matcher : Matcher)
    (hMember : (none, matcher) ∈ classes) :
    ¬ matcher.Fits (piece ++ rest) := by
  have hSplit :
      classes =
        classes.dropLast ++ [(some .punct, Matcher.punct)] :=
    rfl
  have hOthers :
      ∀ entry ∈ classes.dropLast, entry.1 ≠ some .punct := by
    simp [classes]
  unfold IsToken classify at hToken
  rw [hSplit, List.findSome?_append] at hToken
  cases hFound : classes.dropLast.findSome?
      (fun entry =>
        (entry.2 (piece ++ rest)).map (entry.1, ·)) with
  | none =>
      rw [hSplit, List.mem_append] at hMember
      rcases hMember with hBefore | hLast
      · have hNone :=
          List.findSome?_eq_none_iff.mp hFound _ hBefore
        simpa [Matcher.Fits] using hNone
      · simp at hLast
  | some found =>
      rw [hFound] at hToken
      cases hToken
      rcases List.exists_of_findSome?_eq_some hFound with
        ⟨entry, hEntry, hSome⟩
      rcases Option.map_eq_some_iff.mp hSome with ⟨n, _, hPair⟩
      exact absurd (Prod.mk.inj hPair).1 (hOthers entry hEntry)

/- A slash in front of a slash is no token. -/
theorem Lexeme.not_isToken_slash_slash
    (rest : List Char) :
    ¬ IsToken .punct ['/'] ('/' :: rest) := by
  intro hToken
  refine hToken.vain Matcher.lineComment
    (by simp [classes]) ?_
  have hTakes :
      (Matcher.literal "//").Takes ['/', '/'] rest :=
    Matcher.literal_takes_iff.mpr rfl
  exact hTakes.andThen_fits_iff.mpr (Matcher.run_fits _ rest)

/- A slash in front of a star is a token if no comment ends. -/
theorem Lexeme.IsToken.not_infix
    {rest : List Char}
    (hToken : IsToken .punct ['/'] ('*' :: rest)) :
    ¬ ['*', '/'] <:+: rest := by
  intro hEnd
  refine hToken.vain Matcher.blockComment
    (by simp [classes]) ?_
  have hTakes :
      (Matcher.literal "/*").Takes ['/', '*'] rest :=
    Matcher.literal_takes_iff.mpr rfl
  exact hTakes.andThen_fits_iff.mpr
    (Matcher.commentRest_fits_iff.mpr hEnd)

namespace Token.Partition

variable
  {file : Option String}
  {text before : List Char}
  {tokens : List Token}

/- The tokens of a text are cut off where they stand. -/
theorem isLexed
    (hPartition : Partition file text before tokens) :
    ∀ token ∈ tokens, token.IsLexed := by
  induction hPartition with
  | done => exact List.forall_mem_nil _
  | token _ _ _ hToken _ _ _ ih =>
      exact List.forall_mem_cons.mpr ⟨⟨_, hToken⟩, ih⟩

/- Between tokens that touch there is nothing in the text. -/
theorem isChain
    (hPartition : Partition file text before tokens) :
    tokens.IsChain fun left right =>
      right.spaced = false →
        ∃ front rest,
          text =
            front ++ left.text.toList
              ++ (right.text.toList ++ rest) ∧
            Lexeme.IsToken left.kind left.text.toList
              (right.text.toList ++ rest) := by
  induction hPartition with
  | done => exact .nil
  | @token before gap rest token tokens hText _ hSome hToken
      _ _ hMore ih =>
      cases hMore with
      | done => exact List.isChain_singleton token
      | @token _ gap' rest' next later hText' _ _ _ hSpaced'
          _ _ =>
          refine List.isChain_cons_cons.mpr ⟨?_, ih⟩
          intro hTouch
          have hNone : gap' = [] := by
            by_contra hGap
            have hSpaced :=
              hSpaced'.mpr ⟨by simp [hSome], hGap⟩
            rw [hTouch] at hSpaced
            cases hSpaced
          have hRest : rest = next.text.toList ++ rest' := by
            rw [hNone, hText] at hText'
            simpa using hText'
          rw [hRest] at hText hToken
          exact ⟨before ++ gap, rest', hText, hToken⟩

/- No slash is read right in front of a slash. -/
theorem not_meets_slash
    (hPartition : Partition file text before tokens) :
    tokens.IsChain fun left right => ¬ Meets '/' left right := by
  refine hPartition.isChain.imp ?_
  rintro left right hTouch
    ⟨hKind, hText, _, hFirst, hSpaced⟩
  rcases hTouch hSpaced with ⟨front, rest, _, hToken⟩
  rcases List.head?_eq_some_iff.mp hFirst with ⟨more, hRight⟩
  rw [hKind, hText, hRight] at hToken
  exact Lexeme.not_isToken_slash_slash _ hToken

/-
  A slash that is read right in front of a star starts a comment
  that does not end.
-/
theorem not_meets_star
    (hPartition : Partition file text before tokens)
    (hClosed :
      ∀ front rest,
        text = front ++ '/' :: '*' :: rest →
          ['*', '/'] <:+: rest) :
    tokens.IsChain fun left right => ¬ Meets '*' left right := by
  refine hPartition.isChain.imp ?_
  rintro left right hTouch
    ⟨hKind, hText, _, hFirst, hSpaced⟩
  rcases hTouch hSpaced with ⟨front, rest, hWhole, hToken⟩
  rcases List.head?_eq_some_iff.mp hFirst with ⟨more, hRight⟩
  rw [hText, hRight] at hWhole
  rw [hKind, hText, hRight] at hToken
  have hEnd :=
    hClosed front (more ++ rest) (by simpa using hWhole)
  exact hToken.not_infix hEnd

end Token.Partition

/- The tokens of a text make up a partition of it. -/
theorem Token.partition_of_ofText
    {file : Option String}
    {text : String}
    {tokens : List Token}
    (hTokens : ofText file text = .ok tokens) :
    Partition file text.toList [] tokens := by
  unfold ofText at hTokens
  cases hScan : Lexeme.scan .start text.toList with
  | error stray =>
      rw [hScan] at hTokens
      cases hTokens
  | ok lexemes =>
      rw [hScan] at hTokens
      cases hTokens
      exact partition_of_scan file rfl .nil (by simp) (by simp)
        hScan

------------------------------------------------------------
-- Printed Traits
------------------------------------------------------------

/-
  The text that is printed for a declaration is woven from its
  spans. Outside of literals there are no two slashes next to
  each other. There is a slash in front of a star only where a
  span has the two as tokens that touch, and this takes a
  comment in the source that is opened but not closed.
-/
theorem TraitDecl.render_comments
    {file : Option String}
    {text : String}
    {decl : TraitDecl}
    (hText : ofText file text = .ok decl)
    (layout : Layout)
    (hIndent : IsQuiet isCommentMark layout.indent) :
    (∃ weave : Weave,
      weave.Shows decl.spans (decl.render layout)) ∧
    ∀ weave : Weave,
      weave.Shows decl.spans (decl.render layout) →
        Cell.Clear '/' weave.cells ∧
        (Cell.Clear '*' weave.cells ↔
          ∀ span ∈ decl.spans,
            span.IsChain fun left right =>
              ¬ Token.Meets '*' left right) ∧
        ((∀ front rest,
            text.toList = front ++ '/' :: '*' :: rest →
              ['*', '/'] <:+: rest) →
          Cell.Clear '*' weave.cells) := by
  rcases exists_infix_of_ofText hText with
    ⟨tokens, hTokens, hInfix⟩
  have hPartition := Token.partition_of_ofText hTokens
  have hLexed :
      ∀ span ∈ decl.spans, ∀ token ∈ span, token.IsLexed := by
    intro span hSpan token hToken
    exact hPartition.isLexed token
      ((hInfix span hSpan).subset hToken)
  refine ⟨Weave.exists_of_render decl hIndent, ?_⟩
  rintro weave ⟨hSpans, _⟩
  have hClear :
      ∀ {second}, isCommentMark second →
        (Cell.Clear second weave.cells ↔
          ∀ span ∈ decl.spans,
            span.IsChain fun left right =>
              ¬ Token.Meets second left right) := by
    intro second hMark
    rw [weave.clear_cells_iff hMark, hSpans]
    exact forall₂_congr fun span hSpan =>
      Code.clear_cells_iff (hLexed span hSpan) hMark
  refine ⟨?_, hClear (by decide), ?_⟩
  · rw [hClear (by decide)]
    intro span hSpan
    exact List.IsChain.infix hPartition.not_meets_slash
      (hInfix span hSpan)
  · intro hClosed
    rw [hClear (by decide)]
    intro span hSpan
    exact List.IsChain.infix (hPartition.not_meets_star hClosed)
      (hInfix span hSpan)

/-
  Slashes in a literal, and a slash and a star with a blank
  between them.
-/
theorem TraitDecl.render_comments_literal :
    let text :=
      "<trait><name>T</name><assocconst><name>N</name>" ++
        "<type>u8</type><default-value>\"//\" / * 2" ++
        "</default-value></assocconst></trait>"
    ∃ decl,
      ofText none text = .ok decl ∧
        decl.render {} =
          "trait T \x7b\n    const N: u8 = \"//\" / * 2;\n\x7d\n" ∧
        ∃ weave : Weave,
          weave.Shows decl.spans (decl.render {}) ∧
            Cell.Clear '/' weave.cells ∧
            Cell.Clear '*' weave.cells := by
  intro text
  have hRead :
      (ofText none text).map (render · {}) =
        .ok "trait T \x7b\n    const N: u8 = \"//\" / * 2;\n\x7d\n" := by
    decide +kernel
  have hNone : ¬ ['/', '*'] <:+: text.toList := by
    decide +kernel
  cases hText : ofText none text with
  | error fault =>
      rw [hText] at hRead
      cases hRead
  | ok decl =>
      rw [hText] at hRead
      rcases render_comments hText {} (by decide) with
        ⟨⟨weave, hShows⟩, hEvery⟩
      rcases hEvery weave hShows with ⟨hSlash, _, hStar⟩
      refine ⟨decl, rfl, Except.ok.inj hRead, weave, hShows,
        hSlash, hStar ?_⟩
      intro front rest hSplit
      refine absurd ⟨front, rest, ?_⟩ hNone
      simpa using hSplit.symm

/-
  A comment that is opened but not closed. The value of the
  constant comes last in the source and first in the text, and
  what follows it up to the star and the slash is lost in a
  comment.
-/
theorem TraitDecl.render_open_comment :
    let text :=
      "<trait><name>T</name><assocfn><name>f</name>" ++
        "<rust>a */ b</rust></assocfn><assocconst>" ++
        "<name>N</name><type>u8</type><default-value>1 /* 2" ++
        "</default-value></assocconst></trait>"
    ∃ decl,
      ofText none text = .ok decl ∧
        (∀ span ∈ decl.spans, ∀ token ∈ span,
          token.isLiteral = false) ∧
        decl.render {} =
          "trait T \x7b\n    const N: u8 = 1 /* 2;\n" ++
            "    fn f() \x7b\n        a */ b\n    \x7d\n\x7d\n" ∧
        ['/', '*'] <:+: (decl.render {}).toList := by
  intro text
  have hRead :
      (ofText none text).map
          (fun decl =>
            (decl.spans.all fun span =>
              span.all fun token => !token.isLiteral,
              decl.render {})) =
        .ok
          (true,
            "trait T \x7b\n    const N: u8 = 1 /* 2;\n" ++
              "    fn f() \x7b\n        a */ b\n    \x7d\n\x7d\n") := by
    decide +kernel
  cases hText : ofText none text with
  | error fault =>
      rw [hText] at hRead
      cases hRead
  | ok decl =>
      rw [hText] at hRead
      rcases Prod.mk.inj (Except.ok.inj hRead) with
        ⟨hPlain, hRender⟩
      refine ⟨decl, rfl, ?_, hRender, ?_⟩
      · simpa using hPlain
      · rw [hRender]
        decide +kernel

end TraitMarkup
