import TraitMarkup.Parse
import TraitMarkup.Proofs.Respacing

/-
  A text is cut without loss, and every piece has its place.

  The tokens of a text and the gaps between them make up the
  whole text. Where a token starts and ends is counted from the
  text itself: the line from the newlines before the place, the
  column from the characters since the last of them. A text
  that cannot be cut is stuck at one place, and that place is
  counted in the same way.

  Key definitions include:
    * `Location.ofOffset`
    * `IsBlankRun`, `IsLineComment`, `IsBlockComment`
    * `IsSkipped`
    * `Lexeme.Cuts`
    * `Token.Partition`

  Main declarations:
    * `Location.after_start`
    * `Token.partition_of_scan`
    * `Lexeme.Cuts.scan_eq`
    * `Lexeme.Cuts.isPrefix_of_stuck`
    * `readTokens_partition`
-/

namespace TraitMarkup

------------------------------------------------------------
-- Places In A Text
------------------------------------------------------------

namespace Location

/-
  The place after some characters of a text. Its line is one
  more than the newlines before it, and its column one more
  than the characters since the last newline.
-/
def ofOffset
    (text : List Char)
    (offset : Nat) :
    Location where
  line := 1 + (text.take offset).count '\n'
  column :=
    1 + ((text.take offset).reverse.takeWhile
      (· ≠ '\n')).length

/- The place reached by reading is where it is counted. -/
theorem after_start
    (front rest : List Char) :
    start.after front =
      ofOffset (front ++ rest) front.length := by
  unfold ofOffset
  rw [List.take_left]
  induction front using List.reverseRecOn with
  | nil => rfl
  | append_singleton front c ih =>
      have hNext :
          start.after (front ++ [c]) =
            (start.after front).next c :=
        after_append start front [c]
      rw [hNext, ih]
      by_cases hNewline : c = '\n'
      · simp [next, hNewline]
        omega
      · simp [next, hNewline]
        omega

end Location

------------------------------------------------------------
-- Gaps As They Are Written
------------------------------------------------------------

/- One or more blanks. -/
def IsBlankRun
    (text : List Char) : Prop :=
  text ≠ [] ∧ ∀ c ∈ text, isBlank c

/- Two slashes and what follows them on the line. -/
def IsLineComment
    (text : List Char) : Prop :=
  ∃ body, text = ['/', '/'] ++ body ∧ '\n' ∉ body

/- A comment that ends where a star first meets a slash. -/
def IsBlockComment
    (text : List Char) : Prop :=
  ∃ body,
    text = ['/', '*'] ++ (body ++ ['*', '/']) ∧
      ¬ ['*', '/'] <:+: body ++ ['*']

/- Blanks and comments, one behind the other. -/
def IsSkipped
    (text : List Char) : Prop :=
  ∃ pieces : List (List Char),
    text = pieces.flatten ∧
      ∀ piece ∈ pieces,
        IsBlankRun piece ∨ IsLineComment piece ∨
          IsBlockComment piece

namespace IsSkipped

/- Where nothing is skipped there is no piece. -/
theorem nil : IsSkipped [] :=
  ⟨[], rfl, List.forall_mem_nil _⟩

/- One more piece behind what is skipped. -/
theorem concat
    {text piece : List Char}
    (hText : IsSkipped text)
    (hPiece :
      IsBlankRun piece ∨ IsLineComment piece ∨
        IsBlockComment piece) :
    IsSkipped (text ++ piece) := by
  rcases hText with ⟨pieces, rfl, hPieces⟩
  refine ⟨pieces ++ [piece], by simp, ?_⟩
  intro other hOther
  rcases List.mem_append.mp hOther with hOld | hNew
  · exact hPieces other hOld
  · rw [List.mem_singleton.mp hNew]
    exact hPiece

end IsSkipped

namespace Matcher

/- The rest of a comment ends with the first star and slash. -/
theorem commentRest_eq_some
    {text : List Char}
    {n : Nat}
    (hSome : commentRest text = some n) :
    ∃ body rest,
      text = body ++ ['*', '/'] ++ rest ∧
        n = body.length + 2 ∧
        ¬ ['*', '/'] <:+: body ++ ['*'] := by
  fun_induction commentRest text generalizing n with
  | case1 => cases hSome
  | case2 c => cases hSome
  | case3 c d rest hEnd =>
      simp only [Bool.and_eq_true, beq_iff_eq] at hEnd
      rcases hEnd with ⟨rfl, rfl⟩
      cases hSome
      exact ⟨[], rest, rfl, rfl, by decide⟩
  | case4 c d rest hEnd ih =>
      rcases Option.map_eq_some_iff.mp hSome with
        ⟨m, hMore, rfl⟩
      rcases ih hMore with ⟨body, later, hText, rfl, hNone⟩
      refine ⟨c :: body, later, ?_, by simp, ?_⟩
      · rw [hText]
        rfl
      · rw [List.cons_append, List.infix_cons_iff]
        rintro (hHere | hLater)
        · -- The comment would have ended at the star before.
          rcases List.cons_prefix_cons.mp hHere with
            ⟨rfl, hSlash⟩
          rcases body with _ | ⟨e, body⟩
          · exact absurd hSlash (by decide)
          · cases (List.cons_prefix_cons.mp hSlash).1
            cases hText
            exact hEnd rfl
        · exact hNone hLater

end Matcher

namespace Lexeme

/- A lexeme that is no token is a run of blanks or a comment. -/
theorem skipped_of_classify
    {piece rest : List Char}
    (hClass :
      classify (piece ++ rest) = some (none, piece.length)) :
    IsBlankRun piece ∨ IsLineComment piece ∨
      IsBlockComment piece := by
  rcases exists_of_classify hClass with
    ⟨matcher, hMember, hTakes⟩
  have hEach :
      ∀ kind matcher, (kind, matcher) ∈ classes →
        kind = none → Matcher.Takes matcher piece rest →
          IsBlankRun piece ∨ IsLineComment piece ∨
            IsBlockComment piece := by
    intro kind matcher hMember
    apply forall_classes
      (motive := fun kind matcher =>
        kind = none → Matcher.Takes matcher piece rest →
          IsBlankRun piece ∨ IsLineComment piece ∨
            IsBlockComment piece) _ _ _ _ hMember
    · rintro kind ⟨⟩
    · intro _ hTaken
      rcases Matcher.andThen_takes_iff.mp hTaken with
        ⟨opening, body, rfl, hOpening, hBody⟩
      rcases Matcher.commentRest_eq_some hBody with
        ⟨inner, later, hText, hLength, hNone⟩
      have hSame : body = inner ++ ['*', '/'] :=
        (List.append_inj hText (by simp [hLength])).1
      rw [Matcher.literal_takes_iff.mp hOpening, hSame]
      exact .inr (.inr ⟨inner, rfl, hNone⟩)
    · intro _ hTaken
      rcases Matcher.andThen_takes_iff.mp hTaken with
        ⟨opening, body, rfl, hOpening, hBody⟩
      rw [Matcher.literal_takes_iff.mp hOpening]
      refine .inr (.inl ⟨body, rfl, ?_⟩)
      intro hNewline
      have hOutside :=
        (Matcher.run_takes_iff.mp hBody).1 '\n' hNewline
      simp at hOutside
    · intro _ hTaken
      rcases Matcher.blanks_takes_iff.mp hTaken with
        ⟨hSome, hBlanks, _⟩
      exact .inl ⟨hSome, hBlanks⟩
  exact hEach none matcher hMember rfl hTakes

end Lexeme

------------------------------------------------------------
-- Tokens And The Gaps Between Them
------------------------------------------------------------

/-
  The tokens and the gaps in front of them make up the text
  behind `before`, up to a last gap.

  A token is the first class that fits where it stands. It is
  spaced when another token stands before it and the gap
  between the two is not empty. Its span is counted in the text
  as a whole.
-/
inductive Token.Partition
    (file : Option String)
    (text : List Char) :
    List Char → List Token → Prop
  | done
      {before gap : List Char}
      (hText : text = before ++ gap)
      (hGap : IsSkipped gap) :
      Partition file text before []
  | token
      {before gap rest : List Char}
      {token : Token}
      {tokens : List Token}
      (hText :
        text = before ++ gap ++ token.text.toList ++ rest)
      (hGap : IsSkipped gap)
      (hSome : token.text ≠ "")
      (hToken :
        Lexeme.IsToken token.kind token.text.toList rest)
      (hSpaced :
        token.spaced = true ↔ before ≠ [] ∧ gap ≠ [])
      (hSpan :
        token.span =
          .between file
            (.ofOffset text (before ++ gap).length)
            (.ofOffset text
              (before ++ gap ++ token.text.toList).length))
      (hMore :
        Partition file text
          (before ++ gap ++ token.text.toList) tokens) :
      Partition file text before (token :: tokens)

/- A lexeme is not empty. -/
theorem Lexeme.ne_nil_of_classify
    {kind : Option Kind}
    {piece rest : List Char}
    (hClass :
      classify (piece ++ rest) = some (kind, piece.length)) :
    piece ≠ [] := by
  rcases exists_piece hClass with ⟨c, more, later, _, hLength⟩
  exact List.ne_nil_of_length_eq_add_one hLength

namespace Token

/- A token that is read behind a gap has its counted place. -/
theorem Partition.ofPiece
    {file : Option String}
    {text before gap piece rest : List Char}
    {kind : Kind}
    {spaced : Bool}
    {tokens : List Token}
    (hText : text = before ++ gap ++ piece ++ rest)
    (hGap : IsSkipped gap)
    (hToken : Lexeme.IsToken kind piece rest)
    (hSpaced : spaced = true ↔ before ≠ [] ∧ gap ≠ [])
    (hMore :
      Partition file text (before ++ gap ++ piece) tokens) :
    Partition file text before
      (⟨kind, String.ofList piece, spaced,
          .between file (.after .start (before ++ gap))
            (.after .start (before ++ gap ++ piece))⟩ ::
        tokens) := by
  have hPiece : (String.ofList piece).toList = piece :=
    String.toList_ofList
  have hFirst :=
    Location.after_start (before ++ gap) (piece ++ rest)
  have hLast :=
    Location.after_start (before ++ gap ++ piece) rest
  rw [← List.append_assoc, ← hText] at hFirst
  rw [← hText] at hLast
  rw [hFirst, hLast]
  rw [← hPiece] at hText hToken hMore
  refine .token hText hGap ?_ hToken hSpaced ?_ hMore
  · simpa using Lexeme.ne_nil_of_classify hToken
  · rw [hPiece]

/-
  The lexemes of a text give a partition. What is carried along
  is the text up to the last token and the gap since then.
-/
theorem partition_of_scan
    (file : Option String)
    {whole text before skipped : List Char}
    {started gap : Bool}
    {lexemes : List Lexeme}
    (hWhole : whole = before ++ skipped ++ text)
    (hSkipped : IsSkipped skipped)
    (hStarted : started = true ↔ before ≠ [])
    (hGap : gap = true ↔ skipped ≠ [])
    (hScan :
      Lexeme.scan (.after .start (before ++ skipped)) text =
        .ok lexemes) :
    Partition file whole before
      (ofLexemes file started gap lexemes) := by
  induction text using Lexeme.text_induction
    generalizing before skipped started gap lexemes with
  | nil =>
      rw [Lexeme.scan] at hScan
      cases hScan
      rw [List.append_nil] at hWhole
      exact .done hWhole hSkipped
  | stray c rest hClass =>
      rw [Lexeme.scan, hClass] at hScan
      cases hScan
  | lexeme kind piece rest hClass ih =>
      have hPiece := Lexeme.ne_nil_of_classify hClass
      rw [← List.append_assoc] at hWhole
      rw [Lexeme.scan_lexeme _ hClass,
        ← Location.after_append] at hScan
      cases hMore : Lexeme.scan
          (.after .start (before ++ skipped ++ piece)) rest with
      | error stray =>
          rw [hMore] at hScan
          cases hScan
      | ok later =>
          rw [hMore] at hScan
          cases hScan
          cases kind with
          | none =>
              have hLonger :=
                hSkipped.concat
                  (Lexeme.skipped_of_classify hClass)
              rw [List.append_assoc before] at hWhole hMore
              have hLater :
                  Partition file whole before
                    (ofLexemes file started true later) :=
                ih hWhole hLonger hStarted (by simp [hPiece])
                  hMore
              exact hLater
          | some kind =>
              have hLater :
                  Partition file whole
                    (before ++ skipped ++ piece)
                    (ofLexemes file true false later) := by
                rw [← List.append_nil (_ ++ piece)]
                  at hWhole hMore
                exact ih hWhole .nil (by simp [hPiece])
                  (by simp) hMore
              exact .ofPiece hWhole hSkipped hClass
                (by simp [hStarted, hGap]) hLater

end Token

------------------------------------------------------------
-- Texts That Are Stuck
------------------------------------------------------------

/-
  The text is cut into pieces up to `rest`. Each piece is what
  the first class that fits takes where the piece stands.
-/
inductive Lexeme.Cuts :
    List Char → List (Option Kind × List Char) →
      List Char → Prop
  | nil
      (rest : List Char) :
      Cuts rest [] rest
  | cons
      {kind : Option Kind}
      {piece text rest : List Char}
      {pieces : List (Option Kind × List Char)}
      (hClass :
        classify (piece ++ text) = some (kind, piece.length))
      (hMore : Cuts text pieces rest) :
      Cuts (piece ++ text) ((kind, piece) :: pieces) rest

namespace Lexeme

/- A text is stuck where no class fits. -/
theorem classify_eq_none_iff
    {text : List Char} :
    classify text = none ↔
      ∀ kind matcher, (kind, matcher) ∈ classes →
        matcher text = none := by
  unfold classify
  rw [List.findSome?_eq_none_iff]
  constructor
  · intro hNone kind matcher hMember
    simpa using hNone (kind, matcher) hMember
  · rintro hNone ⟨kind, matcher⟩ hMember
    simp [hNone kind matcher hMember]

namespace Cuts

variable {text rest : List Char}
variable {pieces : List (Option Kind × List Char)}

/- The pieces and the rest make up the text. -/
theorem text_eq
    (hCuts : Cuts text pieces rest) :
    text = pieces.flatMap Prod.snd ++ rest := by
  induction hCuts with
  | nil rest => rfl
  | cons hClass hMore ih =>
      rw [List.flatMap_cons, List.append_assoc, ← ih]

/- Cutting goes on behind the pieces. -/
theorem scan_eq
    (hCuts : Cuts text pieces rest)
    (hStuck : classify rest = none)
    (hRest : rest ≠ [])
    (place : Location) :
    scan place text =
      .error
        ⟨rest.head hRest,
          place.after (pieces.flatMap Prod.snd)⟩ := by
  induction hCuts generalizing place with
  | nil rest =>
      cases rest with
      | nil => contradiction
      | cons c rest =>
          rw [scan, hStuck]
          rfl
  | cons hClass hMore ih =>
      rw [scan_lexeme place hClass, ih hStuck hRest,
        List.flatMap_cons, Location.after_append]
      rfl

/- Two ways to cut a text take the same pieces in turn. -/
theorem isPrefix_of_stuck
    (hCuts : Cuts text pieces rest)
    (hStuck : classify rest = none)
    {others : List (Option Kind × List Char)}
    {later : List Char}
    (hOthers : Cuts text others later) :
    others <+: pieces := by
  induction hOthers generalizing pieces with
  | nil text => exact List.nil_prefix
  | @cons kind piece text later others hClass hMore ih =>
      generalize hWhole : piece ++ text = whole at hCuts
      cases hCuts with
      | nil =>
          rw [hWhole, hStuck] at hClass
          cases hClass
      | @cons kind' piece' text' _ pieces hClass' hMore' =>
          rw [hWhole, hClass', Option.some.injEq,
            Prod.mk.injEq] at hClass
          rcases hClass with ⟨rfl, hLength⟩
          rcases List.append_inj hWhole hLength.symm with
            ⟨rfl, rfl⟩
          exact List.cons_prefix_cons.mpr ⟨rfl, ih hMore'⟩

end Cuts

/- A text is cut to its end, or up to a stray character. -/
theorem exists_cuts
    (text : List Char) :
    (∀ place, ∃ lexemes, scan place text = .ok lexemes) ∨
      ∃ pieces c rest,
        Cuts text pieces (c :: rest) ∧
          classify (c :: rest) = none := by
  induction text using text_induction with
  | nil =>
      refine .inl fun place => ⟨[], ?_⟩
      rw [scan]
  | stray c rest hClass =>
      exact .inr ⟨[], c, rest, .nil _, hClass⟩
  | lexeme kind piece rest hClass ih =>
      rcases ih with hWhole | ⟨pieces, c, later, hCuts, hStuck⟩
      · refine .inl fun place => ?_
        rcases hWhole (place.after piece) with ⟨lexemes, hScan⟩
        rw [scan_lexeme place hClass, hScan]
        exact ⟨_, rfl⟩
      · exact .inr ⟨(kind, piece) :: pieces, c, later,
          .cons hClass hCuts, hStuck⟩

end Lexeme

------------------------------------------------------------
-- All Texts
------------------------------------------------------------

/-
  A text is cut into tokens and gaps without loss, or it is
  refused at the one place where no class of lexemes fits.
-/
theorem readTokens_partition
    (file : Option String)
    (text : String) :
    (∃ tokens,
      readTokens file text = .ok tokens ∧
        Token.Partition file text.toList [] tokens) ∨
    (∃ pieces c rest,
      Lexeme.Cuts text.toList pieces (c :: rest) ∧
        (∀ kind matcher,
          (kind, matcher) ∈ Lexeme.classes →
            matcher (c :: rest) = none) ∧
        (∀ others later,
          Lexeme.Cuts text.toList others later →
            others ≠ pieces →
              ∃ kind matcher,
                (kind, matcher) ∈ Lexeme.classes ∧
                  Matcher.Fits matcher later) ∧
        readTokens file text =
          .error (.rejected
            { kind := .structural
              message :=
                "error lexing input: unexpected character `"
                  ++ c.toString ++ "`"
              rule := "lexer"
              token := none
              span :=
                .startingAt file
                  (.ofOffset text.toList
                    (pieces.flatMap Prod.snd).length)
              callers := [] })) := by
  rcases Lexeme.exists_cuts text.toList with
    hWhole | ⟨pieces, c, rest, hCuts, hStuck⟩
  · rcases hWhole .start with ⟨lexemes, hScan⟩
    refine .inl
      ⟨Token.ofLexemes file false false lexemes, ?_, ?_⟩
    · simp [readTokens, Token.ofText, hScan, Except.map]
    · exact Token.partition_of_scan file rfl .nil (by simp)
        (by simp) hScan
  · refine .inr ⟨pieces, c, rest, hCuts,
      Lexeme.classify_eq_none_iff.mp hStuck, ?_, ?_⟩
    · intro others later hOthers hOther
      by_contra hNone
      have hStuckToo : Lexeme.classify later = none := by
        rw [Lexeme.classify_eq_none_iff]
        intro kind matcher hMember
        rw [← Matcher.not_fits_iff]
        exact fun hFits =>
          hNone ⟨kind, matcher, hMember, hFits⟩
      have hLeft := hCuts.isPrefix_of_stuck hStuck hOthers
      have hRight := hOthers.isPrefix_of_stuck hStuckToo hCuts
      exact hOther
        (hLeft.eq_of_length_le hRight.length_le)
    · have hScan :=
        hCuts.scan_eq hStuck (List.cons_ne_nil c rest) .start
      have hPlace :=
        Location.after_start (pieces.flatMap Prod.snd)
          (c :: rest)
      rw [← hCuts.text_eq] at hPlace
      rw [readTokens, Token.ofText, hScan, hPlace]
      rfl

end TraitMarkup
