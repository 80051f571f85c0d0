import TraitMarkup.Proofs.Relaying

/-
  The tokens of a text under other gaps.

  Where the tokens of a text stand is left aside here: what is
  cut from a text is looked at without its places. A run of
  tokens may be laid out with any blanks where a gap stood and
  with nothing where tokens touched. The text is then cut into
  the same tokens.

  Key definitions include:
    * `Token.placeless`
    * `Token.cut`
    * `Code.Laid`
    * `Lexeme.IsGap`
    * `Respaced`

  Main declarations:
    * `Lexeme.text_induction`
    * `Token.cut_token`, `Token.cut_gap`
    * `Token.cut_laid`
    * `Respaced.cut_eq`
-/

namespace TraitMarkup

------------------------------------------------------------
-- Lexeme By Lexeme
------------------------------------------------------------

namespace Lexeme

/- A text is empty, stuck, or a lexeme and another text. -/
theorem text_induction
    {motive : List Char → Prop}
    (nil : motive [])
    (stray :
      ∀ c rest,
        classify (c :: rest) = none → motive (c :: rest))
    (lexeme :
      ∀ kind piece rest,
        classify (piece ++ rest) =
            some (kind, piece.length) →
          motive rest → motive (piece ++ rest))
    (text : List Char) :
    motive text := by
  induction hLength : text.length using Nat.strong_induction_on
    generalizing text with
  | _ length ih =>
      cases text with
      | nil => exact nil
      | cons c text =>
          cases hClass : classify (c :: text) with
          | none => exact stray c text hClass
          | some found =>
              rcases found with ⟨kind, n⟩
              rcases exists_piece hClass with
                ⟨d, piece, rest, hText, rfl⟩
              rw [hText] at hClass hLength ⊢
              apply lexeme kind (d :: piece) rest hClass
              apply ih rest.length _ rest rfl
              rw [← hLength, List.length_append,
                List.length_cons]
              omega

/- The first lexeme of a text, and then the others. -/
theorem scan_lexeme
    (place : Location)
    {kind : Option Kind}
    {piece rest : List Char}
    (hClass :
      classify (piece ++ rest) = some (kind, piece.length)) :
    scan place (piece ++ rest) =
      (scan (place.after piece) rest).map
        (⟨kind, piece, place, place.after piece⟩ :: ·) := by
  rcases exists_piece hClass with ⟨c, more, later, hText, hSize⟩
  rcases piece with _ | ⟨d, piece⟩
  · simp at hSize
  · rw [List.cons_append, scan]
    rw [List.cons_append] at hClass
    simp only [hClass, List.length_cons,
      Nat.add_sub_cancel, List.take_left, List.drop_left]
    cases scan (place.after (d :: piece)) rest <;> rfl

end Lexeme

------------------------------------------------------------
-- Tokens Without Their Places
------------------------------------------------------------

namespace Token

/- The token without its place. -/
def placeless
    (token : Token) :
    Token :=
  { token with span := {} }

/-
  What is seen of lexemes: their tokens without their places,
  or the character at which no lexeme starts.
-/
def seen
    (file : Option String)
    (started gap : Bool) :
    Except StrayCharacter (List Lexeme) →
      Except Char (List Token)
  | .error stray => .error stray.char
  | .ok lexemes =>
      .ok ((ofLexemes file started gap lexemes).map placeless)

/- A gap is seen only in the next token. -/
theorem seen_gap
    (file : Option String)
    (started gap : Bool)
    (piece : List Char)
    (first last : Location)
    (outcome : Except StrayCharacter (List Lexeme)) :
    seen file started gap
        (outcome.map (⟨none, piece, first, last⟩ :: ·)) =
      seen file started true outcome := by
  cases outcome with
  | error stray => rfl
  | ok lexemes => rfl

/- A token is seen with its kind, its text and its gap. -/
theorem seen_token
    (file : Option String)
    (started gap : Bool)
    (kind : Kind)
    (piece : List Char)
    (first last : Location)
    (outcome : Except StrayCharacter (List Lexeme)) :
    seen file started gap
        (outcome.map (⟨some kind, piece, first, last⟩ :: ·)) =
      (seen file true false outcome).map
        (⟨kind, String.ofList piece, started && gap, {}⟩ ::
          ·) := by
  cases outcome with
  | error stray => rfl
  | ok lexemes => rfl

/- It does not matter where a text stands. -/
theorem seen_scan
    (file : Option String)
    (place : Location)
    (started gap : Bool)
    (text : List Char) :
    seen file started gap (Lexeme.scan place text) =
      seen none started gap (Lexeme.scan .start text) := by
  induction text using Lexeme.text_induction
    generalizing file place started gap with
  | nil =>
      rw [Lexeme.scan, Lexeme.scan]
      rfl
  | stray c rest hClass =>
      rw [Lexeme.scan, Lexeme.scan, hClass]
      rfl
  | lexeme kind piece rest hClass ih =>
      rw [Lexeme.scan_lexeme place hClass,
        Lexeme.scan_lexeme .start hClass]
      cases kind with
      | none =>
          rw [seen_gap, seen_gap, ih,
            ih none (Location.start.after piece)]
      | some kind =>
          rw [seen_token, seen_token, ih,
            ih none (Location.start.after piece)]

end Token

------------------------------------------------------------
-- Cutting Without Places
------------------------------------------------------------

namespace Token

/- What is cut from a text, wherever it stands. -/
def cut
    (started gap : Bool)
    (text : List Char) :
    Except Char (List Token) :=
  seen none started gap (Lexeme.scan .start text)

/- Nothing is cut from nothing. -/
theorem cut_nil
    (started gap : Bool) :
    cut started gap [] = .ok [] := by
  unfold cut
  rw [Lexeme.scan]
  rfl

/- A stray character ends the cutting. -/
theorem cut_stray
    (started gap : Bool)
    {c : Char}
    {rest : List Char}
    (hClass : Lexeme.classify (c :: rest) = none) :
    cut started gap (c :: rest) = .error c := by
  unfold cut
  rw [Lexeme.scan, hClass]
  rfl

/- A gap is dropped, but the next token knows of it. -/
theorem cut_gap
    (started gap : Bool)
    {piece rest : List Char}
    (hClass :
      Lexeme.classify (piece ++ rest) =
        some (none, piece.length)) :
    cut started gap (piece ++ rest) =
      cut started true rest := by
  unfold cut
  rw [Lexeme.scan_lexeme _ hClass, seen_gap, seen_scan]

/- A token is cut off in front of the others. -/
theorem cut_token
    (started gap : Bool)
    {kind : Kind}
    {piece rest : List Char}
    (hToken : Lexeme.IsToken kind piece rest) :
    cut started gap (piece ++ rest) =
      (cut true false rest).map
        (⟨kind, String.ofList piece, started && gap, {}⟩ ::
          ·) := by
  unfold cut
  rw [Lexeme.scan_lexeme _ hToken, seen_token, seen_scan]

/- The tokens of a text are what is cut from it. -/
theorem cut_eq
    (file : Option String)
    (text : String) :
    cut false false text.toList =
      ((ofText file text).map
        (·.map placeless)).mapError StrayCharacter.char := by
  unfold cut ofText
  rw [← seen_scan file .start]
  cases Lexeme.scan .start text.toList with
  | error stray => rfl
  | ok lexemes => rfl

end Token

------------------------------------------------------------
-- Laying Out A Run
------------------------------------------------------------

namespace Code

/-
  The text has the tokens of a run in order, after some other
  token: blanks where a gap stood, and nothing elsewhere.
-/
inductive LaidAfter : Code → List Char → Prop
  | nil : LaidAfter [] []
  | glued
      {token : Token}
      {rest : Code}
      {text : List Char}
      (hSpaced : token.spaced = false)
      (hRest : LaidAfter rest text) :
      LaidAfter (token :: rest) (token.text.toList ++ text)
  | spaced
      {token : Token}
      {rest : Code}
      {blanks text : List Char}
      (hSpaced : token.spaced = true)
      (hSome : blanks ≠ [])
      (hBlanks : ∀ c ∈ blanks, isBlank c)
      (hRest : LaidAfter rest text) :
      LaidAfter (token :: rest)
        (blanks ++ (token.text.toList ++ text))

/- The text has the tokens of a run and nothing in front. -/
inductive Laid : Code → List Char → Prop
  | nil : Laid [] []
  | cons
      {first : Token}
      {rest : Code}
      {text : List Char}
      (hRest : LaidAfter rest text) :
      Laid (first :: rest) (first.text.toList ++ text)

/- The run with nothing in front of its first token. -/
def fresh : Code → Code
  | [] => []
  | first :: rest => { first with spaced := false } :: rest

/- A layout does not ask where tokens stand. -/
theorem LaidAfter.placeless
    {code : Code}
    {text : List Char}
    (hLaid : LaidAfter code text) :
    LaidAfter (code.map Token.placeless) text := by
  induction hLaid with
  | nil => exact .nil
  | glued hSpaced hRest ih => exact .glued hSpaced ih
  | spaced hSpaced hSome hBlanks hRest ih =>
      exact .spaced hSpaced hSome hBlanks ih

theorem Laid.placeless
    {code : Code}
    {text : List Char}
    (hLaid : Laid code text) :
    Laid (code.map Token.placeless) text := by
  cases hLaid with
  | nil => exact .nil
  | cons hRest => exact .cons hRest.placeless

theorem fresh_placeless
    (code : Code) :
    fresh (code.map Token.placeless) =
      (fresh code).map Token.placeless := by
  cases code with
  | nil => rfl
  | cons first rest => rfl

/- The text of a run is one of its layouts. -/
theorem laid_render
    (code : Code) :
    Laid code code.render.toList := by
  have hAfter :
      ∀ rest : Code,
        LaidAfter rest
          (String.join (rest.map Token.spelled)).toList := by
    intro rest
    induction rest with
    | nil => exact .nil
    | cons token rest ih =>
        by_cases hSpaced : token.spaced
        · have hText :
              (String.join ((token :: rest).map
                Token.spelled)).toList =
                [' '] ++ (token.text.toList ++
                  (String.join (rest.map Token.spelled)).toList) := by
            simp [Token.spelled, hSpaced]
          rw [hText]
          exact .spaced hSpaced (by simp)
            (List.forall_mem_singleton.mpr rfl) ih
        · have hText :
              (String.join ((token :: rest).map
                Token.spelled)).toList =
                token.text.toList ++
                  (String.join (rest.map Token.spelled)).toList := by
            simp [Token.spelled, hSpaced]
          rw [hText]
          exact .glued (by simpa using hSpaced) ih
  cases code with
  | nil => exact .nil
  | cons first rest =>
      have hText :
          (render (first :: rest)).toList =
            first.text.toList ++
              (String.join (rest.map Token.spelled)).toList := by
        simp [render]
      rw [hText]
      exact .cons (hAfter rest)

end Code

namespace Token

/- Blanks are a gap, with the blanks that follow or not. -/
theorem cut_blanks
    (started gap : Bool)
    {blanks : List Char}
    (hSome : blanks ≠ [])
    (hBlanks : ∀ c ∈ blanks, isBlank c)
    (text : List Char) :
    cut started gap (blanks ++ text) =
      cut started true text := by
  -- The blanks that follow belong to the same lexeme.
  rcases (Matcher.bounded_run isBlank).exists_takes
      (Matcher.run_fits isBlank text) with
    ⟨more, rest, rfl, hTakes⟩
  rcases Matcher.run_takes_iff.mp hTakes with ⟨hMore, hRest⟩
  have hAll : ∀ c ∈ blanks ++ more, isBlank c := by
    intro c hMember
    rcases List.mem_append.mp hMember with hIn | hIn
    · exact hBlanks c hIn
    · exact hMore c hIn
  have hWhole :=
    Lexeme.classify_blanks (by simp [hSome]) hAll hRest
  rw [← List.append_assoc, cut_gap started gap hWhole]
  by_cases hNone : more = []
  · rw [hNone, List.nil_append]
  · have hPart := Lexeme.classify_blanks hNone hMore hRest
    rw [cut_gap started true hPart]

/- A token that was cut from a text is cut from a relaid one. -/
theorem cut_relaid
    (started gap : Bool)
    {kind : Kind}
    {piece old new : List Char}
    {tokens : List Token}
    (hToken : Lexeme.IsToken kind piece old)
    (hRelaid : Relaid old new)
    (hCut : cut true false new = .ok tokens) :
    cut started gap (piece ++ new) =
      .ok (⟨kind, String.ofList piece, started && gap, {}⟩ ::
        tokens) := by
  rw [cut_token started gap (hRelaid.isToken hToken), hCut]
  rfl

/- One more token in front of a run that is laid out anew. -/
theorem cut_laidAfter_cons
    {kind : Kind}
    {piece rest skipped laid : List Char}
    {gap : Bool}
    {slice : List Token}
    (hToken : Lexeme.IsToken kind piece rest)
    (hSkipped : gap = true ∨ skipped = [])
    (hSlice :
      ∀ {laid},
        Code.LaidAfter slice laid →
          Relaid rest laid ∧ cut true false laid = .ok slice)
    (hLaid :
      Code.LaidAfter
        (⟨kind, String.ofList piece, gap, {}⟩ :: slice) laid) :
    Relaid (skipped ++ (piece ++ rest)) laid ∧
      cut true false laid =
        .ok (⟨kind, String.ofList piece, gap, {}⟩ :: slice) := by
  cases hLaid with
  | glued hSpaced hRest =>
      rcases hSlice hRest with ⟨hRelaid, hCut⟩
      have hGap : gap = false := hSpaced
      subst hGap
      have hNothing : skipped = [] := by simpa using hSkipped
      subst hNothing
      rw [String.toList_ofList, List.nil_append]
      exact ⟨.token hToken hRelaid,
        cut_relaid true false hToken hRelaid hCut⟩
  | @spaced _ _ blanks text hSpaced hSome hBlanks hRest =>
      rcases hSlice hRest with ⟨hRelaid, hCut⟩
      have hGap : gap = true := hSpaced
      subst hGap
      rw [String.toList_ofList]
      refine ⟨.gap skipped hSome hBlanks
        (.token hToken hRelaid), ?_⟩
      rw [cut_blanks true false hSome hBlanks]
      exact cut_relaid true true hToken hRelaid hCut

/-
  A run that was cut from a text after some token, laid out
  anew: the layout relays the text, and is cut into the run.
-/
theorem cut_laidAfter
    {text skipped laid : List Char}
    {gap : Bool}
    {tokens slice : List Token}
    (hCut : cut true gap text = .ok tokens)
    (hSkipped : gap = true ∨ skipped = [])
    (hSlice : slice <+: tokens)
    (hLaid : Code.LaidAfter slice laid) :
    Relaid (skipped ++ text) laid ∧
      cut true false laid = .ok slice := by
  induction text using Lexeme.text_induction
    generalizing skipped gap tokens slice laid with
  | nil =>
      rw [cut_nil] at hCut
      cases hCut
      cases List.prefix_nil.mp hSlice
      cases hLaid
      exact ⟨.cut _, cut_nil true false⟩
  | stray c rest hClass =>
      rw [cut_stray true gap hClass] at hCut
      cases hCut
  | lexeme kind piece rest hClass ih =>
      cases kind with
      | none =>
          rw [cut_gap true gap hClass] at hCut
          have hLater :
              Relaid ((skipped ++ piece) ++ rest) laid ∧
                cut true false laid = .ok slice :=
            ih hCut (.inl rfl) hSlice hLaid
          rwa [List.append_assoc] at hLater
      | some kind =>
          have hToken : Lexeme.IsToken kind piece rest := hClass
          rw [cut_token true gap hToken] at hCut
          cases hMore : cut true false rest with
          | error c =>
              rw [hMore] at hCut
              cases hCut
          | ok more =>
              rw [hMore] at hCut
              cases hCut
              cases slice with
              | nil =>
                  cases hLaid
                  exact ⟨.cut _, cut_nil true false⟩
              | cons first slice =>
                  rcases List.cons_prefix_cons.mp hSlice with
                    ⟨rfl, hPrefix⟩
                  apply cut_laidAfter_cons hToken hSkipped _ hLaid
                  intro later hLater
                  exact ih hMore (.inr rfl) hPrefix hLater

/-
  A run that was cut from a text, laid out anew: the layout is
  cut into the run, with no gap in front.
-/
theorem cut_laid
    {text laid : List Char}
    {started gap : Bool}
    {tokens slice : List Token}
    (hCut : cut started gap text = .ok tokens)
    (hSlice : slice <:+: tokens)
    (hLaid : Code.Laid slice laid) :
    cut false false laid = .ok (Code.fresh slice) := by
  cases hLaid with
  | nil => exact cut_nil false false
  | @cons first slice laid hLaid =>
      induction text using Lexeme.text_induction
        generalizing started gap tokens with
      | nil =>
          rw [cut_nil] at hCut
          cases hCut
          cases List.infix_nil.mp hSlice
      | stray c rest hClass =>
          rw [cut_stray started gap hClass] at hCut
          cases hCut
      | lexeme kind piece rest hClass ih =>
          cases kind with
          | none =>
              rw [cut_gap started gap hClass] at hCut
              exact ih hCut hSlice
          | some kind =>
              have hToken : Lexeme.IsToken kind piece rest :=
                hClass
              rw [cut_token started gap hToken] at hCut
              cases hMore : cut true false rest with
              | error c =>
                  rw [hMore] at hCut
                  cases hCut
              | ok more =>
                  rw [hMore] at hCut
                  cases hCut
                  rcases List.infix_cons_iff.mp hSlice with
                    hHere | hLater
                  · rcases List.cons_prefix_cons.mp hHere with
                      ⟨rfl, hPrefix⟩
                    rcases cut_laidAfter hMore (.inr rfl)
                        hPrefix hLaid with
                      ⟨hRelaid, hLaidCut⟩
                    rw [String.toList_ofList]
                    exact cut_relaid false false hToken hRelaid
                      hLaidCut
                  · exact ih hMore hLater

end Token

------------------------------------------------------------
-- Other Gaps In A Text
------------------------------------------------------------

/- The text `gap` is nothing but gaps before `rest`. -/
inductive Lexeme.IsGap : List Char → List Char → Prop
  | nil
      (rest : List Char) :
      IsGap [] rest
  | cons
      {piece gap rest : List Char}
      (hClass :
        classify (piece ++ (gap ++ rest)) =
          some (none, piece.length))
      (hGap : IsGap gap rest) :
      IsGap (piece ++ gap) rest

/- The new text is the old one with blanks for its gaps. -/
inductive Respaced : List Char → List Char → Prop
  /- The rest of the text is kept. -/
  | kept
      (text : List Char) :
      Respaced text text
  | token
      {kind : Kind}
      {piece old new : List Char}
      (hToken : Lexeme.IsToken kind piece old)
      (hRest : Respaced old new) :
      Respaced (piece ++ old) (piece ++ new)
  /- Blanks stand for a gap. -/
  | gap
      {gap blanks old new : List Char}
      (hGap : Lexeme.IsGap gap old)
      (hNonempty : gap ≠ [])
      (hSome : blanks ≠ [])
      (hBlanks : ∀ c ∈ blanks, isBlank c)
      (hRest : Respaced old new) :
      Respaced (gap ++ old) (blanks ++ new)

namespace Token

/- Gaps are dropped, but the next token knows of them. -/
theorem cut_isGap
    (started : Bool)
    {gap rest : List Char}
    (hGap : Lexeme.IsGap gap rest) :
    cut started true (gap ++ rest) =
      cut started true rest := by
  induction hGap with
  | nil rest => rfl
  | cons hClass hGap ih =>
      rw [List.append_assoc, cut_gap started true hClass, ih]

/- A gap is at least one lexeme. -/
theorem cut_isGap_of_ne_nil
    (started gapBefore : Bool)
    {gap rest : List Char}
    (hGap : Lexeme.IsGap gap rest)
    (hNonempty : gap ≠ []) :
    cut started gapBefore (gap ++ rest) =
      cut started true rest := by
  cases hGap with
  | nil => contradiction
  | cons hClass hGap =>
      rw [List.append_assoc, cut_gap started gapBefore hClass]
      exact cut_isGap started hGap

end Token

namespace Respaced

/- A text with other gaps is relaid. -/
theorem relaid
    {old new : List Char}
    (hRespaced : Respaced old new) :
    Relaid old new := by
  induction hRespaced with
  | kept text => exact .kept text
  | token hToken hRest ih => exact .token hToken ih
  | gap hGap hNonempty hSome hBlanks hRest ih =>
      exact .gap _ hSome hBlanks ih

/- Other gaps make no difference to what is cut. -/
theorem cut_eq
    {old new : List Char}
    (hRespaced : Respaced old new)
    (started gap : Bool) :
    Token.cut started gap new = Token.cut started gap old := by
  induction hRespaced generalizing started gap with
  | kept text => rfl
  | token hToken hRest ih =>
      have hNew := hRest.relaid.isToken hToken
      rw [Token.cut_token started gap hToken,
        Token.cut_token started gap hNew, ih]
  | gap hGap hNonempty hSome hBlanks hRest ih =>
      rw [Token.cut_isGap_of_ne_nil started gap hGap hNonempty,
        Token.cut_blanks started gap hSome hBlanks, ih]

end Respaced

end TraitMarkup
