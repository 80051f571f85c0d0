import TraitMarkup.Proofs.Acceptance
import TraitMarkup.Proofs.Carrying
import TraitMarkup.Proofs.Respacing

/-
  Blanks between tokens make no difference.

  The tokens of a text may be laid out with other blanks in
  their gaps, all of them or some that follow each other. They
  are cut again into the same tokens. A source with other gaps
  prints as the same text, or fails in the same way: only the
  places differ.

  Key definitions include:
    * `Relabel.placeless`
    * `Failure.placeless`, `Fault.placeless`

  Main declarations:
    * `TraitDecl.ofTokens_placeless`
    * `TraitDecl.ofText_eq_printCut`
    * `Token.ofText_layout`
-/

namespace TraitMarkup

------------------------------------------------------------
-- Results Without Places
------------------------------------------------------------

/- The relabeling that drops the places of tokens. -/
def Relabel.placeless : Relabel where
  apply := Token.placeless
  kind_apply := fun _ => rfl
  text_apply := fun _ => rfl

theorem Relabel.keepsGaps_placeless :
    Relabel.placeless.KeepsGaps :=
  fun _ => rfl

/- The kind of a failure without the places of its tokens. -/
def Failure.Kind.placeless : Failure.Kind → Failure.Kind
  | duplication prior =>
      duplication (prior.map (Fragment.relabel .placeless))
  | kind => kind

/-
  The failure without places. Its kind, its message, its rule
  and its callers are kept.
-/
def Failure.placeless
    (failure : Failure) :
    Failure :=
  { failure with
    kind := failure.kind.placeless
    token := failure.token.map Token.placeless
    span := .unknown }

/- The fault without places. -/
def Fault.placeless : Fault → Fault
  | rejected failure => rejected failure.placeless
  | fault => fault

/- A failure shows places only where its cause does. -/
theorem Production.failure_placeless
    (production : Production)
    (path : List String)
    (cause : Cause) :
    (production.failure path cause).placeless =
      production.failure path (cause.relabel .placeless) := by
  have hText :=
    cause.text_relabel .placeless Relabel.keepsGaps_placeless
      production
  have hToken := cause.token?_relabel .placeless
  have hKind :
      cause.kind.placeless =
        (cause.relabel .placeless).kind := by
    cases cause <;> rfl
  have hSpan :
      (cause.relabel .placeless).span = Span.unknown := by
    cases cause with
    | endOfInput last => cases last <;> rfl
    | malformed complaint => cases complaint <;> rfl
    | _ => rfl
  simp only [failure, Failure.placeless, hText, hToken, hKind,
    hSpan]
  rfl

/- Readings agree without places: they are equal then. -/
theorem Relabel.Agrees.eq_placeless
    {α : Type}
    {carry : α → α}
    {left right : Except Fault α}
    (hAgrees : Relabel.placeless.Agrees carry left right) :
    right = (left.map carry).mapError Fault.placeless := by
  cases hAgrees with
  | ok result => rfl
  | rejected production path cause =>
      simp only [Production.reject,
        ← production.failure_placeless path cause]
      rfl
  | lacking lack => rfl

------------------------------------------------------------
-- Whole Traits
------------------------------------------------------------

namespace TraitDecl

/- What a run ended with, without places. -/
theorem ofResult_placeless
    (fragment : Fragment)
    (cursor : Cursor) :
    ofResult (Relabel.placeless.carryRead (fragment, cursor)) =
      ((ofResult (fragment, cursor)).map
        (relabel .placeless)).mapError Fault.placeless := by
  rcases cursor with ⟨before, rest⟩
  cases rest with
  | nil => cases fragment <;> rfl
  | cons token rest =>
      have hRender :=
        Code.render_relabel Relabel.keepsGaps_placeless
          (token :: rest)
      have hLater :
          ofResult (Relabel.placeless.carryRead
              (fragment, ⟨before, token :: rest⟩)) =
            .error (outside
              ("extraneous tokens after end of trait definition: `"
                ++ Code.render
                  (Code.relabel .placeless (token :: rest))
                ++ "`")
              (some token.placeless)) :=
        rfl
      rw [hLater, hRender]
      rfl

/- What tokens declare, without places. -/
theorem ofTokens_placeless
    (tokens : List Token) :
    ofTokens (tokens.map Token.placeless) =
      ((ofTokens tokens).map
        (relabel .placeless)).mapError Fault.placeless := by
  cases tokens with
  | nil => rfl
  | cons token rest =>
      have hSame :
          token.placeless.opens "trait" =
            token.opens "trait" :=
        token.opens_relabel .placeless "trait"
      by_cases hOpens : token.opens "trait"
      · have hParse :=
          ((Production.ofSection .trait).parse_relabel
            .placeless [] ⟨[token], rest⟩).eq_placeless
        rw [List.map_cons, ofTokens_cons hOpens,
          ofTokens_cons (hSame.trans hOpens)]
        change
          ((Production.ofSection .trait).parse []
            (Cursor.relabel .placeless
              ⟨[token], rest⟩)).bind ofResult = _
        rw [hParse]
        cases (Production.ofSection .trait).parse []
            ⟨[token], rest⟩ with
        | error fault => rfl
        | ok found =>
            exact ofResult_placeless found.1 found.2
      · have hOutside :
            ¬ token.opens Section.trait.closeTag.text :=
          hOpens
        have hOutsideToo :
            ¬ token.placeless.opens
              Section.trait.closeTag.text := by
          rwa [show token.placeless.opens
              Section.trait.closeTag.text =
            token.opens Section.trait.closeTag.text from hSame]
        rw [List.map_cons, ofTokens, if_neg hOutsideToo,
          ofTokens, if_neg hOutside]
        rfl

/- What is printed for what was cut from a source. -/
def printCut
    (layout : Layout) :
    Except Char (List Token) → Except Fault String
  | .error c =>
      .error (.rejected
        (StrayCharacter.failure ⟨c, .start⟩ none).placeless)
  | .ok tokens =>
      (ofTokens tokens).map (·.render layout)

/-
  What a source prints as, without places, depends on what is
  cut from it alone.
-/
theorem ofText_eq_printCut
    (file : Option String)
    (text : String)
    (layout : Layout) :
    ((ofText file text).map
        (·.render layout)).mapError Fault.placeless =
      printCut layout (Token.cut false false text.toList) := by
  have hRender :
      ∀ decl : TraitDecl,
        (decl.relabel .placeless).render layout =
          decl.render layout :=
    fun decl =>
      decl.render_relabel Relabel.keepsGaps_placeless layout
  rw [Token.cut_eq file text]
  unfold ofText readTokens
  cases Token.ofText file text with
  | error stray => rfl
  | ok tokens =>
      change
        ((ofTokens tokens).map
            (·.render layout)).mapError Fault.placeless =
          (ofTokens (tokens.map Token.placeless)).map
            (·.render layout)
      rw [ofTokens_placeless tokens]
      cases ofTokens tokens with
      | error fault => rfl
      | ok decl => exact congrArg Except.ok (hRender decl).symm

end TraitDecl

------------------------------------------------------------
-- Layouts
------------------------------------------------------------

namespace Token

/- A run of a text that is laid out has the same tokens. -/
theorem ofText_laid
    {file : Option String}
    (other : Option String)
    {text laid : String}
    {tokens slice : List Token}
    (hTokens : ofText file text = .ok tokens)
    (hSlice : slice <:+: tokens)
    (hLaid : Code.Laid slice laid.toList) :
    (ofText other laid).map (·.map placeless) =
      .ok ((Code.fresh slice).map placeless) := by
  have hText := cut_eq file text
  rw [hTokens] at hText
  have hCut :=
    cut_laid hText (hSlice.map placeless) hLaid.placeless
  rw [cut_eq other laid, Code.fresh_placeless] at hCut
  cases hAgain : ofText other laid with
  | error stray =>
      rw [hAgain] at hCut
      cases hCut
  | ok again =>
      rw [hAgain] at hCut
      exact congrArg Except.ok (Except.ok.inj hCut)

/- A run of a text that is written out has the same tokens. -/
theorem ofText_render
    {file : Option String}
    (other : Option String)
    {text : String}
    {tokens slice : List Token}
    (hTokens : ofText file text = .ok tokens)
    (hSlice : slice <:+: tokens) :
    (ofText other (Code.render slice)).map Code.bare =
      .ok (Code.bare slice) := by
  have hLaid :=
    ofText_laid other hTokens hSlice (Code.laid_render slice)
  have hFresh :
      Code.bare ((Code.fresh slice).map placeless) =
        Code.bare slice := by
    cases slice with
    | nil => rfl
    | cons first rest =>
        simp [Code.bare, Code.fresh, Function.comp_def,
          placeless, bare]
  cases hAgain : ofText other (Code.render slice) with
  | error stray =>
      rw [hAgain] at hLaid
      cases hLaid
  | ok again =>
      rw [hAgain] at hLaid
      have hSame := Except.ok.inj hLaid
      have hBare :
          Code.bare (again.map placeless) =
            Code.bare again := by
        simp [Code.bare, Function.comp_def, placeless, bare]
      rw [← hFresh, ← hSame, hBare]
      rfl

end Token

/-
  Laying out tokens with other blanks loses nothing.

  A run of tokens of a text, with any blanks where a gap stood
  and nothing elsewhere, is cut into the same tokens, the first
  of them with no gap before it. The text that the run is
  written as is such a layout. A source with other blanks for
  its gaps prints as the same text, or fails in the same way.
-/
theorem Token.ofText_layout :
    (∀ (file other : Option String) (text laid : String)
        (tokens slice : List Token),
      ofText file text = .ok tokens →
        slice <:+: tokens →
          Code.Laid slice laid.toList →
            (ofText other laid).map (·.map placeless) =
              .ok ((Code.fresh slice).map placeless)) ∧
    (∀ (file other : Option String) (text : String)
        (tokens slice : List Token),
      ofText file text = .ok tokens →
        slice <:+: tokens →
          (ofText other (Code.render slice)).map Code.bare =
            .ok (Code.bare slice)) ∧
    (∀ (file other : Option String) (old new : String)
        (layout : Layout),
      Respaced old.toList new.toList →
        ((TraitDecl.ofText other new).map
            (·.render layout)).mapError Fault.placeless =
          ((TraitDecl.ofText file old).map
            (·.render layout)).mapError Fault.placeless) := by
  refine ⟨?_, ?_, ?_⟩
  · intro file other text laid tokens slice hTokens hSlice hLaid
    exact ofText_laid other hTokens hSlice hLaid
  · intro file other text tokens slice hTokens hSlice
    exact ofText_render other hTokens hSlice
  · intro file other old new layout hRespaced
    rw [TraitDecl.ofText_eq_printCut,
      TraitDecl.ofText_eq_printCut,
      hRespaced.cut_eq false false]

/-
  A name and a character stay apart when a comment between them
  goes, and a trait reads the same on two lines.
-/
theorem Token.ofText_layout_comment :
    ∃ tokens,
      ofText none "b /**/'a'" = .ok tokens ∧
        Code.Laid tokens "b\t'a'".toList ∧
        (ofText none "b\t'a'").map (·.map placeless) =
          .ok [⟨.ident, "b", false, {}⟩,
            ⟨.char, "'a'", true, {}⟩] ∧
        (ofText none "b 'a'").map Code.bare =
          .ok (Code.bare tokens) ∧
        Respaced "<trait>/*b*/ </trait>".toList
          "<trait>\n</trait>".toList ∧
        ((TraitDecl.ofText none "<trait>\n</trait>").map
            (·.render {})).mapError Fault.placeless =
          ((TraitDecl.ofText none "<trait>/*b*/ </trait>").map
            (·.render {})).mapError Fault.placeless := by
  let name : Token :=
    ⟨.ident, "b", false,
      .between none ⟨1, 1⟩ ⟨1, 2⟩⟩
  let char : Token :=
    ⟨.char, "'a'", true,
      .between none ⟨1, 7⟩ ⟨1, 10⟩⟩
  have hTokens :
      ofText none "b /**/'a'" = .ok [name, char] := by
    decide +kernel
  have hAfter :
      Code.LaidAfter [char]
        (['\t'] ++ (char.text.toList ++ [])) :=
    .spaced rfl (by decide)
      (List.forall_mem_singleton.mpr rfl) .nil
  have hSame :
      name.text.toList ++
          (['\t'] ++ (char.text.toList ++ [])) =
        "b\t'a'".toList := by
    decide
  have hLaid :
      Code.Laid [name, char] "b\t'a'".toList :=
    hSame ▸ .cons hAfter
  have hGap :
      Lexeme.IsGap "/*b*/ ".toList "</trait>".toList :=
    @Lexeme.IsGap.cons "/*b*/".toList " ".toList _ rfl
      (@Lexeme.IsGap.cons " ".toList [] _ rfl (.nil _))
  have hRespaced :
      Respaced "<trait>/*b*/ </trait>".toList
        "<trait>\n</trait>".toList :=
    @Respaced.token .openTag "<trait>".toList _ _ rfl
      (@Respaced.gap _ ['\n'] _ _ hGap (by decide) (by decide)
        (List.forall_mem_singleton.mpr rfl) (.kept _))
  rcases Token.ofText_layout with ⟨hRun, hRender, hText⟩
  refine ⟨[name, char], hTokens, hLaid, ?_, ?_, hRespaced, ?_⟩
  · exact hRun none none "b /**/'a'" "b\t'a'" [name, char]
      [name, char] hTokens (List.infix_refl _) hLaid
  · exact hRender none none "b /**/'a'" [name, char]
      [name, char] hTokens (List.infix_refl _)
  · exact hText none none _ _ {} hRespaced

end TraitMarkup
