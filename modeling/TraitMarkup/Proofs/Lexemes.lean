import TraitMarkup.Proofs.Matching
import TraitMarkup.Token.Lexeme

/-
  The classes of lexemes, one by one.

  Every class takes some characters and no more than there are,
  and the first of them tells a lot about the class. A token
  that is taken before one text is taken before every loosened
  form of it. Most classes that do not fit a text do not fit a
  loosened form of it either; literals may, for a blank is
  content to them.

  Key definitions include:
    * `Kind.matcher`
    * `Matcher.Starts`
    * `Lexeme.leads`

  Main declarations:
    * `Matcher.tag_takes_iff`
    * `Matcher.closed_charLiteral`
    * `Matcher.closed_stringLiteral`
    * `Kind.keeps_matcher`
    * `Lexeme.starts_of_mem`
    * `Lexeme.bounded_of_mem`, `Lexeme.positive_of_mem`
-/

namespace TraitMarkup

------------------------------------------------------------
-- Classes Of Characters
------------------------------------------------------------

/- It is enough to try the five blanks. -/
theorem isSolidClass_of_blanks
    {belongs : Char → Bool}
    (hBlanks :
      [' ', '\t', '\r', '\n', '\x0c'].all (!belongs ·)) :
    IsSolidClass belongs := by
  intro c hBelongs
  by_contra hNot
  have hBlank : isBlank c := by simpa using hNot
  have hMember : c ∈ [' ', '\t', '\r', '\n', '\x0c'] := by
    simpa [isBlank, or_assoc] using hBlank
  have hOutside := List.all_eq_true.mp hBlanks c hMember
  simp [hBelongs] at hOutside

theorem isSolidClass_isWordStart :
    IsSolidClass isWordStart :=
  isSolidClass_of_blanks (by decide)

theorem isSolidClass_isWordPart :
    IsSolidClass isWordPart :=
  isSolidClass_of_blanks (by decide)

theorem isSolidClass_isDigit :
    IsSolidClass Char.isDigit :=
  isSolidClass_of_blanks (by decide)

theorem isSolidClass_isDigitPart :
    IsSolidClass isDigitPart :=
  isSolidClass_of_blanks (by decide)

------------------------------------------------------------
-- What A Match Starts With
------------------------------------------------------------

namespace Matcher

/- What the matcher fits starts with one of the class. -/
def Starts
    (matcher : Matcher)
    (belongs : Char → Bool) : Prop :=
  ∀ ⦃text : List Char⦄,
    matcher.Fits text →
      ∃ c rest, text = c :: rest ∧ belongs c

/- A matcher does not fit what starts in another way. -/
theorem Starts.not_fits
    {matcher : Matcher}
    {belongs : Char → Bool}
    (hStarts : matcher.Starts belongs)
    {c : Char}
    (hOutside : belongs c = false)
    (rest : List Char) :
    ¬ matcher.Fits (c :: rest) := by
  intro hFits
  rcases hStarts hFits with ⟨d, later, hText, hBelongs⟩
  cases hText
  rw [hOutside] at hBelongs
  cases hBelongs

theorem Starts.mono
    {matcher : Matcher}
    {belongs wider : Char → Bool}
    (hStarts : matcher.Starts belongs)
    (hWider : ∀ c, belongs c → wider c) :
    matcher.Starts wider := by
  intro text hFits
  rcases hStarts hFits with ⟨c, rest, rfl, hBelongs⟩
  exact ⟨c, rest, rfl, hWider c hBelongs⟩

theorem starts_one
    (belongs : Char → Bool) :
    (one belongs).Starts belongs :=
  fun _ hFits => one_fits_iff.mp hFits

theorem starts_literal
    {word : String}
    {c : Char}
    {more : List Char}
    (hWord : word.toList = c :: more) :
    (literal word).Starts (· == c) := by
  intro text hFits
  rcases literal_fits_iff.mp hFits with ⟨rest, rfl⟩
  rw [hWord]
  exact ⟨c, more ++ rest, rfl, by simp⟩

theorem Starts.andThen
    {first : Matcher}
    {belongs : Char → Bool}
    (hFirst : first.Starts belongs)
    (second : Matcher) :
    (first.andThen second).Starts belongs := by
  intro text hFits
  rcases andThen_fits_iff.mp hFits with ⟨n, hSome, _⟩
  exact hFirst (by simp [Fits, hSome])

theorem Starts.orElse
    {first second : Matcher}
    {belongs : Char → Bool}
    (hFirst : first.Starts belongs)
    (hSecond : second.Starts belongs) :
    (first.orElse second).Starts belongs := by
  intro text hFits
  rcases orElse_fits_iff.mp hFits with hLeft | hRight
  · exact hFirst hLeft
  · exact hSecond hRight

theorem starts_firstOf
    {matchers : List Matcher}
    {belongs : Char → Bool}
    (hEach : ∀ matcher ∈ matchers, matcher.Starts belongs) :
    (firstOf matchers).Starts belongs := by
  intro text hFits
  rcases firstOf_fits_iff.mp hFits with
    ⟨matcher, hMember, hFits⟩
  exact hEach matcher hMember hFits

end Matcher

------------------------------------------------------------
-- Words And Numbers
------------------------------------------------------------

namespace Matcher

theorem keeps_word : word.Keeps :=
  (closed_one isWordStart).keeps.andThen
    (keeps_run isSolidClass_isWordPart)

theorem reflects_word : word.Reflects :=
  (reflects_run isWordPart).afterOne isSolidClass_isWordStart

theorem keeps_lifetime : lifetime.Keeps :=
  (closed_literal "'").keeps.andThen keeps_word

theorem reflects_lifetime : lifetime.Reflects :=
  reflects_word.afterLiteral (by decide)

theorem keeps_ident : ident.Keeps := by
  apply Keeps.orElse
  · exact (closed_literal "r#").keeps.andThen keeps_word
  · exact reflects_word.afterLiteral (by decide)
  · exact keeps_word

theorem reflects_ident : ident.Reflects :=
  (reflects_word.afterLiteral (by decide)).orElse
    reflects_word

/- A word has nothing but parts of words. -/
theorem isWordPart_of_word_takes
    {front rest : List Char}
    (hTakes : word.Takes front rest)
    {c : Char}
    (hMember : c ∈ front) :
    isWordPart c := by
  rcases andThen_takes_iff.mp hTakes with
    ⟨left, right, rfl, hFirst, hMore⟩
  rcases one_takes_iff.mp hFirst with ⟨d, rfl, hStart⟩
  rcases List.mem_append.mp hMember with hLeft | hRight
  · rw [List.mem_singleton.mp hLeft]
    simp only [isWordStart, isWordPart, Char.isAlphanum]
      at hStart ⊢
    grind
  · exact (run_takes_iff.mp hMore).1 c hRight

/- A name has parts of words, and a mark if it is raw. -/
theorem isWordPart_of_ident_takes
    {front rest : List Char}
    (hTakes : ident.Takes front rest)
    {c : Char}
    (hMember : c ∈ front) :
    isWordPart c ∨ c = '#' := by
  rcases orElse_takes_iff.mp hTakes with
    hRaw | ⟨_, hPlain⟩
  · rcases andThen_takes_iff.mp hRaw with
      ⟨mark, name, rfl, hMark, hName⟩
    rw [literal_takes_iff.mp hMark] at hMember
    rcases List.mem_append.mp hMember with hIn | hIn
    · have hEither : c = 'r' ∨ c = '#' := by simpa using hIn
      rcases hEither with rfl | rfl
      · exact .inl (by decide)
      · exact .inr rfl
    · exact .inl (isWordPart_of_word_takes hName hIn)
  · exact .inl (isWordPart_of_word_takes hPlain hMember)

theorem keeps_digits : digits.Keeps :=
  (closed_one Char.isDigit).keeps.andThen
    (keeps_run isSolidClass_isDigitPart)

theorem reflects_digits : digits.Reflects :=
  (reflects_run isDigitPart).afterOne isSolidClass_isDigit

theorem keeps_fraction : fraction.Keeps :=
  (closed_literal ".").keeps.andThen keeps_digits

theorem reflects_fraction : fraction.Reflects :=
  reflects_digits.afterLiteral (by decide)

/- The mark of an exponent is not a blank. -/
theorem isSolidClass_exponentMark :
    IsSolidClass (fun c => c == 'e' || c == 'E') :=
  isSolidClass_of_blanks (by decide)

/- The sign of an exponent is not a blank. -/
theorem isSolidClass_sign :
    IsSolidClass (fun c => c == '+' || c == '-') :=
  isSolidClass_of_blanks (by decide)

theorem keeps_runOne_isDigitPart :
    (runOne isDigitPart).Keeps :=
  (closed_one isDigitPart).keeps.andThen
    (keeps_run isSolidClass_isDigitPart)

theorem reflects_runOne_isDigitPart :
    (runOne isDigitPart).Reflects :=
  (reflects_run isDigitPart).afterOne
    isSolidClass_isDigitPart

theorem keeps_exponent : exponent.Keeps := by
  apply Keeps.andThen (closed_one _).keeps
  apply Keeps.andThen
  · exact (closed_one _).keeps.optional
      (reflects_one isSolidClass_sign)
  · exact keeps_runOne_isDigitPart

/-
  A sign may be absent, but then a digit comes first. Either
  way the first character is no blank, so the old text starts
  with it too.
-/
theorem reflects_signedDigits :
    ((optional (one (fun c => c == '+' || c == '-'))).andThen
      (runOne isDigitPart)).Reflects := by
  intro old new hLoose hFits
  rcases (bounded_one _).optional.exists_takes
      (optional_fits _ new) with
    ⟨front, rest, rfl, hTakes⟩
  rw [hTakes.andThen_fits_iff] at hFits
  rcases optional_takes_iff.mp hTakes with
    hSign | ⟨hNot, rfl⟩
  · rcases (closed_one _).takes_of_loosened
        (solid_one isSolidClass_sign) hLoose hSign with
      ⟨later, rfl, hOld, hRest⟩
    have hOptional := optional_takes_iff.mpr (.inl hOld)
    exact hOptional.andThen_fits_iff.mpr
      (reflects_runOne_isDigitPart hRest hFits)
  · have hDigits := reflects_runOne_isDigitPart hLoose hFits
    rcases (starts_one isDigitPart).andThen _ hFits with
      ⟨c, later, hNew, hDigit⟩
    rw [hNew] at hLoose hNot
    rcases hLoose.head (isSolidClass_isDigitPart c hDigit) with
      ⟨before, rfl, _⟩
    have hNoSign :
        ¬ (one (fun c => c == '+' || c == '-')).Fits
          (c :: before) := by
      simpa [one_fits_iff] using hNot
    have hOptional :=
      optional_takes_iff.mpr (.inr ⟨hNoSign, rfl⟩)
    exact hOptional.andThen_fits_iff.mpr hDigits

theorem reflects_exponent : exponent.Reflects :=
  reflects_signedDigits.afterOne isSolidClass_exponentMark

theorem keeps_number : number.Keeps := by
  apply keeps_digits.andThen
  apply Keeps.andThen
  · exact keeps_fraction.optional reflects_fraction
  · apply Keeps.andThen
    · exact keeps_exponent.optional reflects_exponent
    · exact keeps_run isSolidClass_isWordPart

theorem reflects_number : number.Reflects := by
  apply reflects_digits.beforeTotal
  intro text
  rw [andThen_fits_of_total]
  · exact optional_fits fraction text
  · intro later
    rw [andThen_fits_of_total (run_fits isWordPart)]
    exact optional_fits exponent later

end Matcher

------------------------------------------------------------
-- Tags
------------------------------------------------------------

namespace Matcher

/- What continues the name of a tag, as a matcher. -/
def tagNamePart : Matcher :=
  fun text => some (tagNameRest text)

/- A character that no name has ends the name. -/
theorem tagNameRest_eq_zero
    {c : Char}
    (hWord : isWordPart c = false)
    (hHyphen : c ≠ '-')
    (rest : List Char) :
    tagNameRest (c :: rest) = 0 := by
  cases rest with
  | nil => simp [tagNameRest, hWord]
  | cons d rest => simp [tagNameRest, hWord, hHyphen]

/- A name goes on by one part after the other. -/
theorem tagNamePart_takes_iff
    {front rest : List Char} :
    tagNamePart.Takes front rest ↔
      tagNameRest front = front.length ∧
        tagNameRest rest = 0 := by
  unfold Takes tagNamePart
  rw [Option.some.injEq]
  fun_induction tagNameRest front with
  | case1 => simp
  | case2 c hWord =>
      cases rest with
      | nil => simp [tagNameRest, hWord]
      | cons d rest => simp [tagNameRest, hWord]
  | case3 c hWord =>
      cases rest with
      | nil => simp [tagNameRest, hWord]
      | cons d rest =>
          simp [tagNameRest, hWord]
          grind
  | case4 c d front hWord ih =>
      simp [tagNameRest, hWord]
      grind
  | case5 c d front hWord hHyphen ih =>
      simp [tagNameRest, hWord, hHyphen]
      grind
  | case6 c d front hWord hHyphen =>
      simp [tagNameRest, hWord, hHyphen]

/- The parts of a name are no blanks. -/
theorem isSolid_of_tagNameRest
    {name : List Char}
    (hName : tagNameRest name = name.length) :
    IsSolid name := by
  fun_induction tagNameRest name with
  | case1 => simp [IsSolid]
  | case2 c hWord =>
      simpa [IsSolid] using isSolidClass_isWordPart c hWord
  | case3 c hWord => simp at hName
  | case4 c d name hWord ih =>
      have hLater := ih (by simp at hName ⊢; omega)
      have hFirst := isSolidClass_isWordPart c hWord
      simpa [IsSolid, hFirst] using hLater
  | case5 c d name hWord hHyphen ih =>
      have hLater := ih (by simp at hName ⊢; omega)
      simp at hHyphen
      have hSecond := isSolidClass_isWordPart d hHyphen.2
      have hFirst : isBlank c = false := by
        rw [hHyphen.1]
        decide
      simpa [IsSolid, hFirst, hSecond] using hLater
  | case6 c d name hWord hHyphen => simp at hName

/-
  A tag is taken by what stands between its fixed texts, if no
  name can go on with the second of them.
-/
theorem tag_takes_iff
    {opening closing : String}
    {c : Char}
    {more : List Char}
    (hClosing : closing.toList = c :: more)
    (hWord : isWordPart c = false)
    (hHyphen : c ≠ '-')
    {front rest : List Char} :
    (tag opening closing).Takes front rest ↔
      ∃ first name,
        front = opening.toList ++
          (first :: name ++ closing.toList) ∧
        isWordStart first ∧
        tagNameRest name = name.length := by
  have hStop :
      ∀ rest, tagNameRest (closing.toList ++ rest) = 0 := by
    intro rest
    rw [hClosing]
    exact tagNameRest_eq_zero hWord hHyphen _
  unfold tag
  rw [andThen_takes_iff]
  constructor
  · rintro ⟨left, inner, rfl, hOpening, hInner⟩
    rcases andThen_takes_iff.mp hInner with
      ⟨named, right, rfl, hNamed, hRight⟩
    rcases andThen_takes_iff.mp hNamed with
      ⟨start, name, rfl, hStart, hName⟩
    rcases one_takes_iff.mp hStart with ⟨first, rfl, hFirst⟩
    rw [literal_takes_iff.mp hOpening,
      literal_takes_iff.mp hRight]
    exact ⟨first, name, rfl, hFirst,
      (tagNamePart_takes_iff.mp hName).1⟩
  · rintro ⟨first, name, rfl, hFirst, hName⟩
    refine ⟨_, _, rfl, literal_takes_iff.mpr rfl, ?_⟩
    apply andThen_takes_iff.mpr
    refine ⟨_, _, rfl, ?_, literal_takes_iff.mpr rfl⟩
    apply andThen_takes_iff.mpr
    refine ⟨[first], name, rfl, ?_, ?_⟩
    · exact one_takes_iff.mpr ⟨first, rfl, hFirst⟩
    · exact tagNamePart_takes_iff.mpr ⟨hName, hStop rest⟩

theorem bounded_tagNamePart : tagNamePart.Bounded := by
  intro text n hSome
  cases hSome
  fun_induction tagNameRest text <;> simp_all <;> omega

theorem bounded_tag
    (opening closing : String) :
    (tag opening closing).Bounded :=
  (bounded_literal opening).andThen
    (((bounded_one isWordStart).andThen
      bounded_tagNamePart).andThen
        (bounded_literal closing))

/- A tag looks at nothing behind it. -/
theorem closed_tag
    {opening closing : String}
    {c : Char}
    {more : List Char}
    (hClosing : closing.toList = c :: more)
    (hWord : isWordPart c = false)
    (hHyphen : c ≠ '-') :
    (tag opening closing).Closed := by
  intro front rest other hTakes
  rw [tag_takes_iff hClosing hWord hHyphen] at hTakes ⊢
  exact hTakes

/- A tag has no blank in it. -/
theorem reflects_tag
    {opening closing : String}
    {c : Char}
    {more : List Char}
    (hClosing : closing.toList = c :: more)
    (hWord : isWordPart c = false)
    (hHyphen : c ≠ '-')
    (hOpeningSolid : IsSolid opening.toList)
    (hClosingSolid : IsSolid closing.toList) :
    (tag opening closing).Reflects := by
  apply (closed_tag hClosing hWord hHyphen).reflects
  · intro front rest hTakes
    rw [tag_takes_iff hClosing hWord hHyphen] at hTakes
    rcases hTakes with ⟨first, name, rfl, hFirst, hName⟩
    have hNameSolid := isSolid_of_tagNameRest hName
    have hFirstSolid := isSolidClass_isWordStart first hFirst
    intro d hMember
    simp only [List.mem_append, List.mem_cons,
      List.cons_append] at hMember
    rcases hMember with hIn | rfl | hIn | hIn
    · exact hOpeningSolid d hIn
    · exact hFirstSolid
    · exact hNameSolid d hIn
    · exact hClosingSolid d hIn
  · exact bounded_tag opening closing

theorem reflects_openTag : openTag.Reflects :=
  reflects_tag rfl rfl (by decide) (by decide) (by decide)

theorem reflects_closeTag : closeTag.Reflects :=
  reflects_tag rfl rfl (by decide) (by decide) (by decide)

theorem reflects_emptyTag : emptyTag.Reflects :=
  reflects_tag rfl rfl (by decide) (by decide) (by decide)

end Matcher

------------------------------------------------------------
-- Byte Marks
------------------------------------------------------------

namespace Matcher

/- A byte mark is there or not; what follows tells it apart. -/
theorem byteMark_takes_iff
    {matcher : Matcher}
    (hApart : ∀ rest, ¬ matcher.Fits ('b' :: rest))
    {front rest : List Char} :
    (byteMark.andThen matcher).Takes front rest ↔
      matcher.Takes front rest ∨
        ∃ inner,
          front = 'b' :: inner ∧
            matcher.Takes inner rest := by
  rw [andThen_takes_iff]
  constructor
  · rintro ⟨left, right, rfl, hMark, hRight⟩
    rcases optional_takes_iff.mp hMark with
      hLeft | ⟨_, rfl⟩
    · rw [literal_takes_iff.mp hLeft]
      exact .inr ⟨right, rfl, hRight⟩
    · exact .inl hRight
  · rintro (hTakes | ⟨inner, rfl, hTakes⟩)
    · refine ⟨[], front, rfl, ?_, hTakes⟩
      apply optional_takes_iff.mpr
      refine .inr ⟨?_, rfl⟩
      intro hFits
      rcases literal_fits_iff.mp hFits with ⟨later, hText⟩
      have hWhole := hTakes.fits
      rw [hText] at hWhole
      exact hApart later hWhole
    · exact ⟨['b'], inner, rfl,
        optional_takes_iff.mpr
          (.inl (literal_takes_iff.mpr rfl)), hTakes⟩

/- A text fits with its byte mark or without one. -/
theorem byteMark_fits_iff
    {matcher : Matcher}
    (hBounded : matcher.Bounded)
    (hApart : ∀ rest, ¬ matcher.Fits ('b' :: rest))
    {text : List Char} :
    (byteMark.andThen matcher).Fits text ↔
      matcher.Fits text ∨
        ∃ rest,
          text = 'b' :: rest ∧ matcher.Fits rest := by
  constructor
  · intro hFits
    have hBoth : (byteMark.andThen matcher).Bounded :=
      (bounded_literal "b").optional.andThen hBounded
    rcases hBoth.exists_takes hFits with
      ⟨front, rest, rfl, hTakes⟩
    rcases (byteMark_takes_iff hApart).mp hTakes with
      hPlain | ⟨inner, rfl, hMarked⟩
    · exact .inl hPlain.fits
    · exact .inr ⟨inner ++ rest, rfl, hMarked.fits⟩
  · rintro (hFits | ⟨rest, rfl, hFits⟩)
    · rcases hBounded.exists_takes hFits with
        ⟨front, rest, rfl, hTakes⟩
      exact ((byteMark_takes_iff hApart).mpr
        (.inl hTakes)).fits
    · rcases hBounded.exists_takes hFits with
        ⟨front, later, rfl, hTakes⟩
      exact ((byteMark_takes_iff hApart).mpr
        (.inr ⟨front, rfl, hTakes⟩)).fits

theorem Closed.afterByteMark
    {matcher : Matcher}
    (hClosed : matcher.Closed)
    (hApart : ∀ rest, ¬ matcher.Fits ('b' :: rest)) :
    (byteMark.andThen matcher).Closed := by
  intro front rest other hTakes
  rw [byteMark_takes_iff hApart] at hTakes ⊢
  rcases hTakes with hPlain | ⟨inner, rfl, hMarked⟩
  · exact .inl (hClosed other hPlain)
  · exact .inr ⟨inner, rfl, hClosed other hMarked⟩

end Matcher

------------------------------------------------------------
-- Character Literals
------------------------------------------------------------

namespace Matcher

/- What stands in a character literal, with its last quote. -/
def charPart : Matcher :=
  firstOf
    [codePoint.andThen (literal "'"),
      escape.andThen (literal "'"),
      plainChar.andThen (literal "'")]

/- A character literal without a byte mark. -/
def charBody : Matcher :=
  (literal "'").andThen charPart

theorem charLiteral_eq :
    charLiteral = byteMark.andThen charBody :=
  rfl

theorem starts_charBody :
    charBody.Starts (· == '\'') :=
  (starts_literal rfl).andThen charPart

theorem closed_codePoint : codePoint.Closed := by
  apply (closed_literal _).andThen
  unfold runOne
  rw [andThen_assoc]
  exact (closed_one isHexDigit).andThen
    (closed_run_literal rfl (by decide))

theorem closed_escape : escape.Closed :=
  (closed_literal _).andThen (closed_one _)

/- A code point starts with three fixed characters. -/
theorem eq_of_codePoint_fits
    {text : List Char}
    (hFits : (codePoint.andThen (literal "'")).Fits text) :
    ∃ rest, text = '\\' :: 'u' :: '\x7b' :: rest := by
  unfold codePoint at hFits
  rw [andThen_assoc] at hFits
  rcases andThen_fits_iff.mp hFits with ⟨n, hSome, _⟩
  have hOpening : (literal "\\u\x7b").Fits text := by
    simp [Fits, hSome]
  exact literal_fits_iff.mp hOpening

theorem starts_escape :
    (escape.andThen (literal "'")).Starts (· == '\\') :=
  ((starts_literal rfl).andThen _).andThen _

/- An escape is a backslash and one more character. -/
theorem eq_of_escape_takes
    {front rest : List Char}
    (hTakes : (escape.andThen (literal "'")).Takes front rest) :
    ∃ c, front = ['\\', c, '\''] := by
  rcases andThen_takes_iff.mp hTakes with
    ⟨left, right, rfl, hEscape, hQuote⟩
  rcases andThen_takes_iff.mp hEscape with
    ⟨mark, escaped, rfl, hMark, hEscaped⟩
  rcases one_takes_iff.mp hEscaped with ⟨c, rfl, _⟩
  rw [literal_takes_iff.mp hMark, literal_takes_iff.mp hQuote]
  exact ⟨c, rfl⟩

/- A plain character is no backslash. -/
theorem eq_of_plainChar_takes
    {front rest : List Char}
    (hTakes :
      (plainChar.andThen (literal "'")).Takes front rest) :
    ∃ c, front = [c, '\''] ∧ c ≠ '\\' := by
  rcases andThen_takes_iff.mp hTakes with
    ⟨left, right, rfl, hPlain, hQuote⟩
  rcases one_takes_iff.mp hPlain with ⟨c, rfl, hClass⟩
  rw [literal_takes_iff.mp hQuote]
  refine ⟨c, rfl, ?_⟩
  simp at hClass
  exact hClass.1.2

/- The three forms exclude each other by how they start. -/
theorem closed_charPart : charPart.Closed := by
  have hQuote := closed_literal "'"
  have hEscaped :
      (firstOf
        [escape.andThen (literal "'"),
          plainChar.andThen (literal "'")]).Closed := by
    unfold firstOf
    rw [firstOf_singleton]
    apply (closed_escape.andThen hQuote).orElse
      ((closed_one _).andThen hQuote)
    intro front rest hTakes
    rcases eq_of_plainChar_takes hTakes with ⟨c, rfl, hPlain⟩
    exact starts_escape.not_fits (by simpa using hPlain) _
  apply (closed_codePoint.andThen hQuote).orElse hEscaped
  intro front rest hTakes hFits
  rcases eq_of_codePoint_fits hFits with ⟨later, hText⟩
  unfold firstOf at hTakes
  rw [firstOf_singleton] at hTakes
  rcases orElse_takes_iff.mp hTakes with
    hEscape | ⟨_, hPlain⟩
  · rcases eq_of_escape_takes hEscape with ⟨c, rfl⟩
    cases hText
  · rcases eq_of_plainChar_takes hPlain with ⟨c, rfl, hNot⟩
    cases hText

theorem closed_charLiteral : charLiteral.Closed := by
  rw [charLiteral_eq]
  apply Closed.afterByteMark
  · exact (closed_literal "'").andThen closed_charPart
  · exact starts_charBody.not_fits (by decide)

theorem bounded_charBody : charBody.Bounded := by
  apply (bounded_literal "'").andThen
  apply bounded_firstOf
  intro matcher hMember
  simp only [List.mem_cons, List.not_mem_nil, or_false]
    at hMember
  rcases hMember with rfl | rfl | rfl
  · apply Bounded.andThen _ (bounded_literal "'")
    apply (bounded_literal _).andThen
    exact ((bounded_one _).andThen (bounded_run _)).andThen
      (bounded_literal _)
  · exact ((bounded_literal _).andThen
      (bounded_one _)).andThen (bounded_literal "'")
  · exact (bounded_one _).andThen (bounded_literal "'")

/- A character literal, with a byte mark or without. -/
theorem charLiteral_fits_iff
    {text : List Char} :
    charLiteral.Fits text ↔
      charBody.Fits text ∨
        ∃ rest,
          text = 'b' :: rest ∧ charBody.Fits rest := by
  rw [charLiteral_eq]
  exact byteMark_fits_iff bounded_charBody
    (starts_charBody.not_fits (by decide))

/- A quote and a word make a literal with another quote. -/
theorem charBody_fits_iff
    {c : Char}
    (hStart : isWordStart c)
    {rest : List Char} :
    charBody.Fits ('\'' :: c :: rest) ↔
      (literal "'").Fits rest := by
  have hBackslash : c ≠ '\\' := by
    rintro rfl
    revert hStart
    decide
  have hQuote : (literal "'").Takes ['\''] (c :: rest) :=
    literal_takes_iff.mpr rfl
  have hPlain : plainChar.Takes [c] rest := by
    apply one_takes_iff.mpr
    refine ⟨c, rfl, ?_⟩
    simp only [Bool.and_eq_true, bne_iff_ne]
    refine ⟨⟨?_, hBackslash⟩, ?_⟩
    all_goals
      rintro rfl
      revert hStart
      decide
  unfold charBody
  rw [show '\'' :: c :: rest = ['\''] ++ (c :: rest) from rfl,
    hQuote.andThen_fits_iff]
  unfold charPart
  rw [firstOf_fits_iff]
  simp only [List.mem_cons, List.not_mem_nil, or_false,
    exists_eq_or_imp, exists_eq_left]
  have hNoCodePoint :
      ¬ (codePoint.andThen (literal "'")).Fits (c :: rest) := by
    intro hFits
    rcases eq_of_codePoint_fits hFits with ⟨later, hText⟩
    cases hText
    exact hBackslash rfl
  have hNoEscape :
      ¬ (escape.andThen (literal "'")).Fits (c :: rest) :=
    starts_escape.not_fits (by simpa using hBackslash) rest
  have hLast :
      (plainChar.andThen (literal "'")).Fits (c :: rest) ↔
        (literal "'").Fits rest :=
    hPlain.andThen_fits_iff
  simp only [hNoCodePoint, hNoEscape, hLast, false_or]

end Matcher

------------------------------------------------------------
-- Strings
------------------------------------------------------------

namespace Matcher

/- A raw string without a byte mark. -/
def rawBody : Matcher :=
  (literal "r\"").andThen
    ((run (· != '"')).andThen (literal "\""))

/- A string with escapes and without a byte mark. -/
def escapedBody : Matcher :=
  (literal "\"").andThen stringRest

theorem stringLiteral_eq :
    stringLiteral =
      (byteMark.andThen rawBody).orElse
        (byteMark.andThen escapedBody) :=
  rfl

theorem starts_rawBody :
    rawBody.Starts (· == 'r') :=
  (starts_literal rfl).andThen _

theorem starts_escapedBody :
    escapedBody.Starts (· == '"') :=
  (starts_literal rfl).andThen _

/- The inside of a string, one character at a time. -/
theorem stringRest_cons
    (c : Char)
    (rest : List Char) :
    stringRest (c :: rest) =
      if c = '"' then
        some 1
      else if c = '\\' then
        match rest with
        | [] => none
        | d :: later =>
            if d = '\n' then
              none
            else
              (stringRest later).map (· + 2)
      else
        (stringRest rest).map (· + 1) := by
  cases rest with
  | nil =>
      by_cases hQuote : c = '"' <;> simp [stringRest, hQuote]
  | cons d later => simp [stringRest]

theorem positive_stringRest : Positive stringRest := by
  intro text n hSome
  cases text with
  | nil => cases hSome
  | cons c rest =>
      rw [stringRest_cons] at hSome
      grind [Option.map_eq_some_iff]

theorem bounded_stringRest : Bounded stringRest := by
  intro text n hSome
  fun_induction stringRest text generalizing n with
  | case1 => cases hSome
  | _ => grind [Option.map_eq_some_iff]

/- The inside of a string ends with its closing quote. -/
theorem closed_stringRest : Closed stringRest := by
  intro front rest other hTakes
  unfold Takes at hTakes ⊢
  fun_induction stringRest front with
  | case1 =>
      have hPositive := positive_stringRest hTakes
      simp at hPositive
  | case2 c hQuote =>
      rw [beq_iff_eq] at hQuote
      simp [stringRest_cons, hQuote]
  | case3 c hQuote =>
      -- Anything but a quote needs at least one more.
      have hMore : stringRest rest ≠ some 0 := fun hNone =>
        absurd (positive_stringRest hNone) (by simp)
      grind [stringRest_cons, Option.map_eq_some_iff]
  | _ => grind [stringRest_cons, Option.map_eq_some_iff]

/- Up to a quote there is a way if there is a quote. -/
theorem quoted_fits_iff
    {text : List Char} :
    ((run (· != '"')).andThen (literal "\"")).Fits text ↔
      '"' ∈ text := by
  rcases (bounded_run _).exists_takes
      (run_fits (· != '"') text) with
    ⟨front, rest, rfl, hTakes⟩
  rw [hTakes.andThen_fits_iff, literal_fits_iff]
  rcases run_takes_iff.mp hTakes with ⟨hFront, hRest⟩
  constructor
  · rintro ⟨later, rfl⟩
    simp
  · intro hMember
    have hNotFront : '"' ∉ front := fun hIn => by
      simpa using hFront '"' hIn
    have hIn : '"' ∈ rest := by simpa [hNotFront] using hMember
    cases rest with
    | nil => cases hIn
    | cons c later =>
        have hQuote := hRest c rfl
        simp only [bne_eq_false_iff_eq] at hQuote
        exact ⟨later, by rw [hQuote]; rfl⟩

/- A raw string needs no more than another quote. -/
theorem rawBody_fits_iff
    {text : List Char} :
    rawBody.Fits text ↔
      ∃ inner, text = 'r' :: '"' :: inner ∧ '"' ∈ inner := by
  constructor
  · intro hFits
    rcases andThen_fits_iff.mp hFits with ⟨n, hSome, _⟩
    have hOpening : (literal "r\"").Fits text := by
      simp [Fits, hSome]
    rcases literal_fits_iff.mp hOpening with ⟨inner, rfl⟩
    have hTakes : (literal "r\"").Takes "r\"".toList inner :=
      literal_takes_iff.mpr rfl
    refine ⟨inner, rfl, ?_⟩
    exact quoted_fits_iff.mp (hTakes.andThen_fits_iff.mp hFits)
  · rintro ⟨inner, rfl, hQuote⟩
    have hTakes : (literal "r\"").Takes ['r', '"'] inner :=
      literal_takes_iff.mpr rfl
    exact hTakes.andThen_fits_iff.mpr (quoted_fits_iff.mpr hQuote)

/- The inside of a string has a quote at its end. -/
theorem quote_mem_of_stringRest_fits
    {text : List Char}
    (hFits : Fits stringRest text) :
    '"' ∈ text := by
  unfold Fits at hFits
  fun_induction stringRest text with
  | case1 => cases hFits
  | _ => grind

/- A string with escapes has two quotes. -/
theorem quote_mem_of_escapedBody_fits
    {rest : List Char}
    (hFits : escapedBody.Fits ('"' :: rest)) :
    '"' ∈ rest := by
  have hTakes : (literal "\"").Takes ['"'] rest :=
    literal_takes_iff.mpr rfl
  exact quote_mem_of_stringRest_fits
    (hTakes.andThen_fits_iff.mp hFits)

theorem bounded_rawBody : rawBody.Bounded :=
  (bounded_literal _).andThen
    ((bounded_run _).andThen (bounded_literal _))

theorem bounded_escapedBody : escapedBody.Bounded :=
  (bounded_literal _).andThen bounded_stringRest

/- A string is raw or not, with a byte mark or without. -/
theorem stringLiteral_fits_iff
    {text : List Char} :
    stringLiteral.Fits text ↔
      (rawBody.Fits text ∨ escapedBody.Fits text) ∨
        ∃ rest,
          text = 'b' :: rest ∧
            (rawBody.Fits rest ∨ escapedBody.Fits rest) := by
  rw [stringLiteral_eq, orElse_fits_iff,
    byteMark_fits_iff bounded_rawBody
      (starts_rawBody.not_fits (by decide)),
    byteMark_fits_iff bounded_escapedBody
      (starts_escapedBody.not_fits (by decide))]
  grind

theorem closed_stringLiteral : stringLiteral.Closed := by
  have hRawApart :=
    starts_rawBody.not_fits (c := 'b') (by decide)
  have hEscapedApart :=
    starts_escapedBody.not_fits (c := 'b') (by decide)
  rw [stringLiteral_eq]
  apply Closed.orElse
  · apply Closed.afterByteMark _ hRawApart
    exact (closed_literal _).andThen
      (closed_run_literal rfl (by decide))
  · apply Closed.afterByteMark _ hEscapedApart
    exact (closed_literal _).andThen closed_stringRest
  · intro front rest hTakes hFits
    -- A quote stands where a raw string has its `r`.
    have hEscaped := hTakes.fits
    rw [byteMark_fits_iff bounded_escapedBody hEscapedApart]
      at hEscaped
    rw [byteMark_fits_iff bounded_rawBody hRawApart] at hFits
    rcases hEscaped with hLeft | ⟨left, hText, hLeft⟩ <;>
      rcases starts_escapedBody hLeft with ⟨c, _, hQuote, _⟩ <;>
      rcases hFits with hRight | ⟨right, hSame, hRight⟩ <;>
      rcases starts_rawBody hRight with ⟨d, _, hMark, _⟩ <;>
      simp_all

end Matcher

------------------------------------------------------------
-- Comments, Blanks And Punctuation
------------------------------------------------------------

namespace Matcher

/- A block comment ends where a star meets a slash. -/
theorem commentRest_fits_iff
    {text : List Char} :
    Fits commentRest text ↔ ['*', '/'] <:+: text := by
  unfold Fits
  fun_induction commentRest text with
  | case1 => simp
  | case2 c => simp [List.infix_cons_iff]
  | case3 c d rest hEnd =>
      simp only [Bool.and_eq_true, beq_iff_eq] at hEnd
      simp [hEnd, List.infix_cons_iff]
  | case4 c d rest hEnd ih =>
      have hNotHere : ¬ ['*', '/'] <+: c :: d :: rest := by
        rw [List.cons_prefix_cons, List.cons_prefix_cons]
        rintro ⟨rfl, rfl, _⟩
        exact hEnd rfl
      rw [Option.isSome_map, ih, @List.infix_cons_iff _ _ c]
      simp only [hNotHere, false_or]

theorem bounded_commentRest : Bounded commentRest := by
  intro text n hSome
  fun_induction commentRest text generalizing n with
  | case1 => cases hSome
  | _ => grind [Option.map_eq_some_iff]

theorem reflects_blockComment : blockComment.Reflects := by
  apply Reflects.afterLiteral _ (by decide)
  intro old new hLoose hFits
  rw [commentRest_fits_iff] at hFits ⊢
  exact hLoose.infix_of_infix (by decide) hFits

theorem reflects_lineComment : lineComment.Reflects :=
  (reflects_run _).afterLiteral (by decide)

/- Blanks are recognized by the first character. -/
theorem blanks_fits_iff
    {text : List Char} :
    blanks.Fits text ↔
      ∃ c rest, text = c :: rest ∧ isBlank c := by
  unfold blanks runOne
  rw [andThen_fits_of_total (run_fits isBlank), one_fits_iff]

/- Blanks are taken up to another character. -/
theorem blanks_takes_iff
    {front rest : List Char} :
    blanks.Takes front rest ↔
      front ≠ [] ∧ (∀ c ∈ front, isBlank c) ∧
        StartsOutside isBlank rest := by
  unfold blanks runOne
  rw [andThen_takes_iff]
  constructor
  · rintro ⟨left, right, rfl, hFirst, hMore⟩
    rcases one_takes_iff.mp hFirst with ⟨c, rfl, hBlank⟩
    rcases run_takes_iff.mp hMore with ⟨hBlanks, hRest⟩
    refine ⟨by simp, ?_, hRest⟩
    simpa [hBlank] using hBlanks
  · rintro ⟨hSome, hBlanks, hRest⟩
    rcases front with _ | ⟨c, front⟩
    · contradiction
    · refine ⟨[c], front, rfl, ?_, ?_⟩
      · exact one_takes_iff.mpr ⟨c, rfl, by simp_all⟩
      · exact run_takes_iff.mpr ⟨by simp_all, hRest⟩

theorem isSolid_longMark :
    ∀ word ∈ longMarks, IsSolid word.toList := by
  decide

theorem keeps_punct : punct.Keeps := by
  rcases keeps_firstOf_literal isSolid_longMark with
    ⟨hKeeps, hReflects⟩
  exact hKeeps.orElse hReflects (closed_one _).keeps

theorem reflects_punct : punct.Reflects := by
  apply (keeps_firstOf_literal isSolid_longMark).2.orElse
  exact reflects_one (isSolidClass_of_blanks (by decide))

end Matcher

------------------------------------------------------------
-- The Classes Together
------------------------------------------------------------

/- The matcher for tokens of a kind. -/
def Kind.matcher : Kind → Matcher
  | .ident => Matcher.ident
  | .lifetime => Matcher.lifetime
  | .string => Matcher.stringLiteral
  | .char => Matcher.charLiteral
  | .number => Matcher.number
  | .punct => Matcher.punct
  | .openTag => Matcher.openTag
  | .closeTag => Matcher.closeTag
  | .emptyTag => Matcher.emptyTag

/- A token is taken whatever is loosened behind it. -/
theorem Kind.keeps_matcher
    (kind : Kind) :
    kind.matcher.Keeps := by
  cases kind with
  | ident => exact Matcher.keeps_ident
  | lifetime => exact Matcher.keeps_lifetime
  | string => exact Matcher.closed_stringLiteral.keeps
  | char => exact Matcher.closed_charLiteral.keeps
  | number => exact Matcher.keeps_number
  | punct => exact Matcher.keeps_punct
  | openTag =>
      exact (Matcher.closed_tag rfl rfl (by decide)).keeps
  | closeTag =>
      exact (Matcher.closed_tag rfl rfl (by decide)).keeps
  | emptyTag =>
      exact (Matcher.closed_tag rfl rfl (by decide)).keeps

namespace Lexeme

/- The characters that a lexeme may start with. -/
def leads : Option Kind → Char → Bool
  | some .closeTag, c => c == '<'
  | some .emptyTag, c => c == '<'
  | some .openTag, c => c == '<'
  | some .char, c => c == '\'' || c == 'b'
  | some .string, c => c == '"' || c == 'r' || c == 'b'
  | some .lifetime, c => c == '\''
  | some .number, c => c.isDigit
  | some .ident, c => isWordStart c
  | some .punct, c => shortMarks.contains c
  | none, c => c == '/' || isBlank c

end Lexeme

/- A long mark starts like a short one. -/
theorem starts_longMark
    {word : String}
    (hWord : word ∈ longMarks) :
    (Matcher.literal word).Starts
      (fun c => shortMarks.contains c) := by
  have hHeads :
      ∀ word ∈ longMarks,
        word.toList.head?.any shortMarks.contains := by
    decide
  have hHead := hHeads word hWord
  cases hText : word.toList with
  | nil =>
      rw [hText] at hHead
      cases hHead
  | cons c more =>
      rw [hText] at hHead
      apply (Matcher.starts_literal hText).mono
      intro d hSame
      rw [beq_iff_eq.mp hSame]
      exact hHead

namespace Kind

/- A token starts with a character of its kind. -/
theorem starts_matcher
    (kind : Kind) :
    kind.matcher.Starts (Lexeme.leads (some kind)) := by
  cases kind with
  | ident =>
      apply Matcher.Starts.orElse
      · apply ((Matcher.starts_literal rfl).andThen _).mono
        simp [Lexeme.leads]
        decide
      · exact (Matcher.starts_one _).andThen _
  | lifetime => exact (Matcher.starts_literal rfl).andThen _
  | string =>
      intro text hFits
      rcases Matcher.stringLiteral_fits_iff.mp hFits with
        (hRaw | hEscaped) | ⟨rest, rfl, _⟩
      · exact Matcher.starts_rawBody.mono
          (by simp [Lexeme.leads]) hRaw
      · exact Matcher.starts_escapedBody.mono
          (by simp [Lexeme.leads]) hEscaped
      · exact ⟨'b', rest, rfl, rfl⟩
  | char =>
      intro text hFits
      rcases Matcher.charLiteral_fits_iff.mp hFits with
        hPlain | ⟨rest, rfl, _⟩
      · exact Matcher.starts_charBody.mono
          (by simp [Lexeme.leads]) hPlain
      · exact ⟨'b', rest, rfl, rfl⟩
  | number =>
      exact ((Matcher.starts_one _).andThen _).andThen _
  | punct =>
      apply Matcher.Starts.orElse _ (Matcher.starts_one _)
      apply Matcher.starts_firstOf
      intro matcher hMember
      rcases List.mem_map.mp hMember with ⟨word, hWord, rfl⟩
      exact starts_longMark hWord
  | openTag => exact (Matcher.starts_literal rfl).andThen _
  | closeTag => exact (Matcher.starts_literal rfl).andThen _
  | emptyTag => exact (Matcher.starts_literal rfl).andThen _

/- A token takes no more than there is. -/
theorem bounded_matcher
    (kind : Kind) :
    kind.matcher.Bounded := by
  have hWord : Matcher.word.Bounded :=
    (Matcher.bounded_one _).andThen (Matcher.bounded_run _)
  have hDigits : Matcher.digits.Bounded :=
    (Matcher.bounded_one _).andThen (Matcher.bounded_run _)
  cases kind with
  | ident =>
      exact ((Matcher.bounded_literal _).andThen hWord).orElse
        hWord
  | lifetime => exact (Matcher.bounded_literal _).andThen hWord
  | string =>
      apply Matcher.Bounded.orElse
      · exact (Matcher.bounded_literal _).optional.andThen
          Matcher.bounded_rawBody
      · exact (Matcher.bounded_literal _).optional.andThen
          Matcher.bounded_escapedBody
  | char =>
      exact (Matcher.bounded_literal _).optional.andThen
        Matcher.bounded_charBody
  | number =>
      apply hDigits.andThen
      apply Matcher.Bounded.andThen
      · exact ((Matcher.bounded_literal _).andThen
          hDigits).optional
      · apply Matcher.Bounded.andThen _ (Matcher.bounded_run _)
        apply Matcher.Bounded.optional
        apply (Matcher.bounded_one _).andThen
        apply (Matcher.bounded_one _).optional.andThen
        exact (Matcher.bounded_one _).andThen
          (Matcher.bounded_run _)
  | punct =>
      apply Matcher.Bounded.orElse _ (Matcher.bounded_one _)
      apply Matcher.bounded_firstOf
      intro matcher hMember
      rcases List.mem_map.mp hMember with ⟨word, _, rfl⟩
      exact Matcher.bounded_literal word
  | openTag => exact Matcher.bounded_tag _ _
  | closeTag => exact Matcher.bounded_tag _ _
  | emptyTag => exact Matcher.bounded_tag _ _

/-
  A token takes something. What takes nothing before some text
  takes nothing before the end either, but there no token is.
-/
theorem positive_matcher
    (kind : Kind) :
    kind.matcher.Positive := by
  intro text n hSome
  by_contra hZero
  have hNothing : kind.matcher.Takes [] text := by
    have hn : n = 0 := by omega
    rw [hn] at hSome
    exact hSome
  have hEnd : kind.matcher.Takes [] [] :=
    kind.keeps_matcher (.cut text) hNothing
  rcases kind.starts_matcher hEnd.fits with
    ⟨c, rest, hText, _⟩
  cases hText

end Kind

namespace Lexeme

/- What holds of tokens and of gaps holds of the classes. -/
theorem forall_classes
    {motive : Option Kind → Matcher → Prop}
    (hToken :
      ∀ kind : Kind, motive (some kind) kind.matcher)
    (hBlock : motive none Matcher.blockComment)
    (hLine : motive none Matcher.lineComment)
    (hBlanks : motive none Matcher.blanks)
    {kind : Option Kind}
    {matcher : Matcher}
    (hMember : (kind, matcher) ∈ classes) :
    motive kind matcher := by
  simp only [classes, List.mem_cons, Prod.mk.injEq,
    List.not_mem_nil, or_false] at hMember
  rcases hMember with
    h | h | h | h | h | h | h | h | h | h | h | h
  all_goals rcases h with ⟨rfl, rfl⟩
  · exact hToken .closeTag
  · exact hToken .emptyTag
  · exact hToken .openTag
  · exact hToken .char
  · exact hToken .string
  · exact hToken .lifetime
  · exact hToken .number
  · exact hToken .ident
  · exact hBlock
  · exact hLine
  · exact hBlanks
  · exact hToken .punct

/- Every class starts with one of its own characters. -/
theorem starts_of_mem
    {kind : Option Kind}
    {matcher : Matcher}
    (hMember : (kind, matcher) ∈ classes) :
    matcher.Starts (leads kind) := by
  have hSlash :
      ∀ c : Char, (c == '/') = true → leads none c := by
    simp [leads]
  have hBlank : ∀ c, isBlank c → leads none c := by
    simp +contextual [leads]
  apply forall_classes
    (motive := fun kind matcher =>
      matcher.Starts (leads kind)) _ _ _ _ hMember
  · exact Kind.starts_matcher
  · exact ((Matcher.starts_literal rfl).mono hSlash).andThen _
  · exact ((Matcher.starts_literal rfl).mono hSlash).andThen _
  · exact ((Matcher.starts_one isBlank).mono hBlank).andThen
      (Matcher.run isBlank)

/- Every class takes something, and not more than there is. -/
theorem positive_bounded_of_mem
    {kind : Option Kind}
    {matcher : Matcher}
    (hMember : (kind, matcher) ∈ classes) :
    matcher.Positive ∧ matcher.Bounded := by
  apply forall_classes
    (motive := fun _ matcher =>
      matcher.Positive ∧ matcher.Bounded) _ _ _ _ hMember
  · exact fun kind =>
      ⟨kind.positive_matcher, kind.bounded_matcher⟩
  · exact ⟨(Matcher.positive_literal (by decide)).andThen _,
      (Matcher.bounded_literal _).andThen
        Matcher.bounded_commentRest⟩
  · exact ⟨(Matcher.positive_literal (by decide)).andThen _,
      (Matcher.bounded_literal _).andThen
        (Matcher.bounded_run _)⟩
  · exact ⟨(Matcher.positive_one isBlank).andThen
        (Matcher.run isBlank),
      (Matcher.bounded_one isBlank).andThen
        (Matcher.bounded_run isBlank)⟩

/- A class for tokens is the class of their kind. -/
theorem eq_matcher_of_mem
    {kind : Option Kind}
    {matcher : Matcher}
    (hMember : (kind, matcher) ∈ classes) :
    ∀ token ∈ kind, matcher = token.matcher := by
  apply forall_classes
    (motive := fun kind matcher =>
      ∀ token ∈ kind, matcher = Kind.matcher token)
    _ _ _ _ hMember
  · rintro kind token ⟨⟩
    rfl
  all_goals
    rintro token ⟨⟩

/- The class and the matcher that a text is classified by. -/
theorem exists_of_classify
    {text : List Char}
    {kind : Option Kind}
    {n : Nat}
    (hClass : classify text = some (kind, n)) :
    ∃ matcher,
      (kind, matcher) ∈ classes ∧ matcher text = some n := by
  rcases List.exists_of_findSome?_eq_some hClass with
    ⟨⟨kind, matcher⟩, hMember, hSome⟩
  rcases Option.map_eq_some_iff.mp hSome with
    ⟨m, hTaken, hPair⟩
  cases hPair
  exact ⟨matcher, hMember, hTaken⟩

end Lexeme

end TraitMarkup
