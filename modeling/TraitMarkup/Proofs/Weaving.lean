import TraitMarkup.Proofs.Composition
import Mathlib.Data.List.Chain

/-
  Where the characters of a printed text come from.

  A printed text is woven from the spans of the declaration and
  from words of the printer. No two spans touch: there is always
  a word between them, and no word has a slash or a star. So two
  neighbouring characters that start a comment can only come
  from one span.

  Characters of string and character literals do not count. Each
  character of the text is kept with the answer to the question
  whether it stands in such a literal.

  Key definitions include:
    * `Cell`
    * `Code.cells`
    * `Strand`
    * `Weave`
    * `Cell.Clear`

  Main declarations:
    * `Weave.composes`
    * `Weave.exists_of_render`
    * `Weave.clear_cells_iff`
-/

namespace TraitMarkup

------------------------------------------------------------
-- Characters And Literals
------------------------------------------------------------

/- A character, and whether it stands in a literal. -/
structure Cell where
  char : Char
  isLiteral : Bool
deriving DecidableEq, Repr

/- The token is a string or a character. -/
def Token.isLiteral
    (token : Token) :
    Bool :=
  token.kind = .string ∨ token.kind = .char

/- The characters of a word, none of them in a literal. -/
def Cell.ofWord
    (word : String) :
    List Cell :=
  word.toList.map (⟨·, false⟩)

/- The characters of a token. -/
def Token.cells
    (token : Token) :
    List Cell :=
  token.text.toList.map (⟨·, token.isLiteral⟩)

/- The blank in front of a token, if it has one. -/
def Token.gapCells
    (token : Token) :
    List Cell :=
  if token.spaced then Cell.ofWord " " else []

/- The characters of a span as it is printed. -/
def Code.cells : Code → List Cell
  | [] => []
  | first :: rest =>
      first.cells
        ++ rest.flatMap fun token =>
          token.gapCells ++ token.cells

/- A span with two tokens in front. -/
theorem Code.cells_cons_cons
    (first next : Token)
    (rest : Code) :
    cells (first :: next :: rest) =
      first.cells ++ (next.gapCells ++ cells (next :: rest)) := by
  simp [cells]

theorem Cell.map_char_ofWord
    (word : String) :
    (ofWord word).map char = word.toList := by
  simp [ofWord, Function.comp_def]

theorem Token.map_char_cells
    (token : Token) :
    token.cells.map Cell.char = token.text.toList := by
  simp [cells, Function.comp_def]

/- The characters of a span are its text. -/
theorem Code.map_char_cells
    (code : Code) :
    code.cells.map Cell.char = code.render.toList := by
  cases code with
  | nil => rfl
  | cons first rest =>
      have hRest :
          (rest.flatMap fun token =>
              token.gapCells ++ token.cells).map Cell.char =
            (String.join (rest.map Token.spelled)).toList := by
        induction rest with
        | nil => rfl
        | cons token rest ih =>
            rw [List.flatMap_cons, List.map_append, ih,
              List.map_cons, String.join_cons,
              String.toList_append, List.map_append,
              Token.map_char_cells]
            unfold Token.gapCells Token.spelled
            split
            · rw [Cell.map_char_ofWord, String.toList_append]
            · rfl
      rw [cells, render, List.map_append, hRest,
        Token.map_char_cells, String.join_cons,
        String.toList_append]

------------------------------------------------------------
-- Weaves
------------------------------------------------------------

/- The character belongs to a mark that opens a comment. -/
def isCommentMark
    (c : Char) :
    Bool :=
  c = '/' ∨ c = '*'

/- A word of the printer, or a span. -/
inductive Strand where
  | word (text : String)
  | span (code : Code)

namespace Strand

/- The span, if it is one. -/
def span? : Strand → Option Code
  | word _ => none
  | span code => some code

/- The characters of a strand. -/
def cells : Strand → List Cell
  | word text => Cell.ofWord text
  | span code => code.cells

/- One of the two is a word. -/
def Apart
    (left right : Strand) : Prop :=
  left.span? = none ∨ right.span? = none

/- A span may be empty, but a word is quiet and not empty. -/
def IsSound : Strand → Prop
  | word text => text ≠ "" ∧ IsQuiet isCommentMark text
  | span _ => True

end Strand

/- Spans with a quiet word between any two of them. -/
structure Weave where
  strands : List Strand
  sound : ∀ strand ∈ strands, strand.IsSound
  apart : strands.IsChain Strand.Apart

namespace Weave

/- The spans in their order. -/
def spans
    (weave : Weave) :
    List Code :=
  weave.strands.filterMap Strand.span?

/- The characters in their order. -/
def cells
    (weave : Weave) :
    List Cell :=
  weave.strands.flatMap Strand.cells

/- A weave of one strand. -/
def single
    (strand : Strand)
    (hSound : strand.IsSound) :
    Weave where
  strands := [strand]
  sound := List.forall_mem_singleton.mpr hSound
  apart := List.isChain_singleton strand

/- One weave behind the other. -/
def append
    (left right : Weave)
    (hApart :
      ∀ last ∈ left.strands.getLast?,
        ∀ first ∈ right.strands.head?, last.Apart first) :
    Weave where
  strands := left.strands ++ right.strands
  sound := List.forall_mem_append.mpr ⟨left.sound, right.sound⟩
  apart := left.apart.append right.apart hApart

/- The weave has these spans and reads as this text. -/
def Shows
    (weave : Weave)
    (spans : List Code)
    (text : String) : Prop :=
  weave.spans = spans ∧
    weave.cells.map Cell.char = text.toList

/- The weave does not start with a span. -/
def StartsQuiet
    (weave : Weave) : Prop :=
  ∀ first ∈ weave.strands.head?, first.span? = none

theorem Shows.append
    {left right : Weave}
    {leftSpans rightSpans : List Code}
    {text more : String}
    (hLeft : left.Shows leftSpans text)
    (hRight : right.Shows rightSpans more)
    (hApart :
      ∀ last ∈ left.strands.getLast?,
        ∀ first ∈ right.strands.head?, last.Apart first) :
    (left.append right hApart).Shows
      (leftSpans ++ rightSpans) (text ++ more) := by
  refine ⟨?_, ?_⟩
  · rw [← hLeft.1, ← hRight.1]
    exact List.filterMap_append
  · rw [String.toList_append, ← hLeft.2, ← hRight.2,
      ← List.map_append]
    congr 1
    exact List.flatMap_append

/- A word alone is a weave without spans. -/
theorem shows_word
    {text : String}
    (hSound : (Strand.word text).IsSound) :
    (single (.word text) hSound).Shows [] text := by
  refine ⟨rfl, ?_⟩
  simp [single, cells, Strand.cells, Cell.map_char_ofWord]

/- A text that a word is put in front of. -/
theorem exists_lead
    {word : String}
    {weave : Weave}
    {spans : List Code}
    {text : String}
    (hQuiet : IsQuiet isCommentMark word)
    (hSome : word ≠ "")
    (hShows : weave.Shows spans text) :
    ∃ weave : Weave,
      weave.Shows spans (word ++ text) ∧
        weave.StartsQuiet := by
  have hWord := shows_word ⟨hSome, hQuiet⟩
  refine ⟨_, hWord.append hShows ?_, ?_⟩
  · intro last hLast first _
    rw [show last = .word word by simpa [single] using hLast.symm]
    exact .inl rfl
  · intro first hFirst
    rw [show first = .word word by
      simpa [append, single] using hFirst.symm]
    rfl

/- A text that is put behind another. -/
theorem exists_append
    {left right : Weave}
    {leftSpans rightSpans : List Code}
    {text more : String}
    (hLeft : left.Shows leftSpans text)
    (hRight : right.Shows rightSpans more)
    (hQuiet : right.StartsQuiet) :
    ∃ weave : Weave,
      weave.Shows (leftSpans ++ rightSpans) (text ++ more) ∧
        (left.StartsQuiet → weave.StartsQuiet) := by
  refine ⟨_, hLeft.append hRight ?_, ?_⟩
  · intro last _ first hFirst
    exact .inr (hQuiet first hFirst)
  · intro hStart first hFirst
    rcases Option.or_eq_some_iff.mp
        (List.head?_append ▸ hFirst) with
      hHere | ⟨_, hThere⟩
    · exact hStart first hHere
    · exact hQuiet first hThere

/- A quiet text is a weave without spans. -/
theorem exists_quiet
    {text : String}
    (hQuiet : IsQuiet isCommentMark text) :
    ∃ weave : Weave,
      weave.Shows [] text ∧ weave.StartsQuiet := by
  by_cases hNone : text = ""
  · rw [hNone]
    refine ⟨⟨[], by simp, .nil⟩, ⟨rfl, rfl⟩, ?_⟩
    simp [StartsQuiet]
  · refine ⟨_, shows_word ⟨hNone, hQuiet⟩, ?_⟩
    simp [StartsQuiet, single, Strand.span?]

/- A text between two quiet texts. -/
theorem exists_enclose
    {opening closing : String}
    {weave : Weave}
    {spans : List Code}
    {text : String}
    (hOpening : IsQuiet isCommentMark opening)
    (hSome : opening ≠ "")
    (hClosing : IsQuiet isCommentMark closing)
    (hShows : weave.Shows spans text) :
    ∃ weave : Weave,
      weave.Shows spans (opening ++ text ++ closing) ∧
        weave.StartsQuiet := by
  rcases exists_lead hOpening hSome hShows with
    ⟨left, hLeft, hStart⟩
  rcases exists_quiet hClosing with ⟨right, hRight, hQuiet⟩
  rcases exists_append hLeft hRight hQuiet with
    ⟨whole, hWhole, hStarts⟩
  rw [List.append_nil] at hWhole
  exact ⟨whole, hWhole, hStarts hStart⟩

/- Weaves go along with putting texts together. -/
theorem composes :
    Composes isCommentMark
      (fun spans text =>
        ∃ weave : Weave, weave.Shows spans text)
      (fun spans text =>
        ∃ weave : Weave,
          weave.Shows spans text ∧ weave.StartsQuiet) := by
  refine
    { marks := ?_
      span := ?_
      quiet := exists_quiet
      lead := ?_
      weaken := ?_
      append := ?_
      follow := ?_
      round := ?_
      curly := ?_ }
  · intro c hMark
    simp only [isCommentMark, Bool.decide_or, Bool.or_eq_true,
      decide_eq_true_eq] at hMark
    rcases hMark with rfl | rfl
    · decide
    · decide
  · intro code
    refine ⟨single (.span code) trivial, rfl, ?_⟩
    simp [single, cells, Strand.cells, Code.map_char_cells]
  · rintro word spans text hQuiet hSome ⟨weave, hShows⟩
    exact exists_lead hQuiet hSome hShows
  · rintro spans text ⟨weave, hShows, _⟩
    exact ⟨weave, hShows⟩
  · rintro left text right more ⟨weave, hShows⟩
      ⟨other, hOther, hQuiet⟩
    rcases exists_append hShows hOther hQuiet with
      ⟨whole, hWhole, _⟩
    exact ⟨whole, hWhole⟩
  · rintro left text right more ⟨weave, hShows, hStart⟩
      ⟨other, hOther, hQuiet⟩
    rcases exists_append hShows hOther hQuiet with
      ⟨whole, hWhole, hStarts⟩
    exact ⟨whole, hWhole, hStarts hStart⟩
  · rintro spans text ⟨weave, hShows⟩
    exact exists_enclose (by decide) (by decide) (by decide)
      hShows
  · rintro spans text ⟨weave, hShows⟩
    exact exists_enclose (by decide) (by decide) (by decide)
      hShows

/- Every printed trait is woven from its spans. -/
theorem exists_of_render
    (decl : TraitDecl)
    {layout : Layout}
    (hIndent : IsQuiet isCommentMark layout.indent) :
    ∃ weave : Weave,
      weave.Shows decl.spans (decl.render layout) :=
  composes.render decl hIndent

end Weave

------------------------------------------------------------
-- Comment Marks
------------------------------------------------------------

namespace Cell

/-
  No slash stands in front of the character `second`, unless
  both of them stand in literals.
-/
def Clear
    (second : Char)
    (cells : List Cell) : Prop :=
  cells.IsChain fun left right =>
    left.char = '/' → right.char = second →
      left.isLiteral ∧ right.isLiteral

instance
    (second : Char)
    (cells : List Cell) :
    Decidable (Clear second cells) :=
  inferInstanceAs (Decidable (List.IsChain _ cells))

variable {second : Char}

/- Quiet characters in front do not matter. -/
theorem clear_append_left_iff
    {left right : List Cell}
    (hQuiet :
      ∀ cell ∈ left, isCommentMark cell.char = false) :
    Clear second (left ++ right) ↔ Clear second right := by
  induction left with
  | nil => rfl
  | cons cell left ih =>
      rw [List.forall_mem_cons] at hQuiet
      have hNoSlash : cell.char ≠ '/' := by
        intro hSlash
        rw [hSlash] at hQuiet
        exact absurd hQuiet.1 (by decide)
      rw [List.cons_append, Clear, List.isChain_cons]
      rw [← ih hQuiet.2]
      simp [hNoSlash, Clear]

/- Two texts with a quiet character between them. -/
theorem clear_append_iff
    {left right : List Cell}
    (hMark : isCommentMark second)
    (hQuiet :
      ∀ cell ∈ right.head?, isCommentMark cell.char = false) :
    Clear second (left ++ right) ↔
      Clear second left ∧ Clear second right := by
  unfold Clear
  rw [List.isChain_append]
  constructor
  · rintro ⟨hLeft, hRight, _⟩
    exact ⟨hLeft, hRight⟩
  · rintro ⟨hLeft, hRight⟩
    refine ⟨hLeft, hRight, ?_⟩
    intro last _ first hFirst _ hSecond
    have hFirstQuiet := hQuiet first hFirst
    rw [hSecond, hMark] at hFirstQuiet
    cases hFirstQuiet

end Cell

namespace Strand

theorem quiet_of_isSound
    {text : String}
    (hSound : (word text).IsSound) :
    ∀ cell ∈ Cell.ofWord text,
      isCommentMark cell.char = false := by
  intro cell hCell
  rcases List.mem_map.mp hCell with ⟨c, hMember, rfl⟩
  exact hSound.2 c hMember

/- Behind a span stands a word, and it is not empty. -/
theorem quiet_head_of_apart
    {code : Code}
    {strands : List Strand}
    (hSound : ∀ strand ∈ strands, strand.IsSound)
    (hApart : (span code :: strands).IsChain Apart) :
    ∀ cell ∈ (strands.flatMap cells).head?,
      isCommentMark cell.char = false := by
  intro cell hCell
  cases strands with
  | nil => cases hCell
  | cons next strands =>
      have hNext := (List.isChain_cons_cons.mp hApart).1
      cases next with
      | span other =>
          rcases hNext with hNext | hNext
          · cases hNext
          · cases hNext
      | word text =>
          have hText := hSound _ List.mem_cons_self
          have hFull : Cell.ofWord text ≠ [] := by
            simp [Cell.ofWord, hText.1]
          rw [List.flatMap_cons, cells,
            List.head?_append_of_ne_nil _ hFull] at hCell
          exact quiet_of_isSound hText cell
            (List.mem_of_mem_head? hCell)

end Strand

namespace Weave

/- The strands are clear if the spans among them are. -/
theorem clear_flatMap_iff
    {second : Char}
    (hMark : isCommentMark second)
    {strands : List Strand}
    (hSound : ∀ strand ∈ strands, strand.IsSound)
    (hApart : strands.IsChain Strand.Apart) :
    Cell.Clear second (strands.flatMap Strand.cells) ↔
      ∀ span ∈ strands.filterMap Strand.span?,
        Cell.Clear second span.cells := by
  induction strands with
  | nil => simp [Cell.Clear]
  | cons strand strands ih =>
      rw [List.forall_mem_cons] at hSound
      have hRest := ih hSound.2 hApart.tail
      rw [List.flatMap_cons]
      cases strand with
      | word text =>
          have hSkip :
              (Strand.word text :: strands).filterMap
                  Strand.span? =
                strands.filterMap Strand.span? := rfl
          rw [hSkip]
          exact (Cell.clear_append_left_iff
            (Strand.quiet_of_isSound hSound.1)).trans hRest
      | span code =>
          have hTake :
              (Strand.span code :: strands).filterMap
                  Strand.span? =
                code :: strands.filterMap Strand.span? := rfl
          rw [hTake, List.forall_mem_cons]
          exact (Cell.clear_append_iff hMark
            (Strand.quiet_head_of_apart hSound.2 hApart)).trans
            (Iff.rfl.and hRest)

/- A woven text is clear if its spans are. -/
theorem clear_cells_iff
    {second : Char}
    (hMark : isCommentMark second)
    (weave : Weave) :
    Cell.Clear second weave.cells ↔
      ∀ span ∈ weave.spans, Cell.Clear second span.cells :=
  clear_flatMap_iff hMark weave.sound weave.apart

end Weave

end TraitMarkup
