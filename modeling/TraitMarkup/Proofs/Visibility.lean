import TraitMarkup.Proofs.Truncation
import TraitMarkup.Proofs.WellFormed
import TraitMarkup.Rust.Printer

/-
  Visibilities, and what is taken for one.

  A visibility is `pub`, alone or with one restriction in
  parentheses. The leaf looks at the first tokens of its code
  and at the last one, but not at the parentheses in between. So
  besides the visibilities it accepts code that goes on behind
  the parenthesis that ends the restriction, or that never ends
  it. Everything else is malformed.

  Key definitions include:
    * `Token.nest`
    * `Code.IsNested`
    * `Code.IsEnclosed`
    * `Code.IsProperVisibility`
    * `Code.Overruns`

  Main declarations:
    * `Code.isEnclosed_iff`
    * `Code.isVisibility_iff`
    * `Production.run_closed`
    * `Production.run_visibility`
-/

namespace TraitMarkup

------------------------------------------------------------
-- Parentheses
------------------------------------------------------------

/- The open parentheses behind a token, if it may follow. -/
def Token.nest
    (depth : Nat)
    (token : Token) :
    Option Nat :=
  if token.text = "(" then
    some (depth + 1)
  else if token.text = ")" then
    if depth = 0 then none else some (depth - 1)
  else
    some depth

namespace Code

/- The open parentheses behind code inside `depth` of them. -/
def nesting
    (depth : Nat)
    (code : Code) :
    Option Nat :=
  code.foldlM Token.nest depth

/- Every parenthesis of the code has its partner in it. -/
def IsNested
    (code : Code) : Prop :=
  code.nesting 0 = some 0

instance
    (code : Code) :
    Decidable code.IsNested :=
  inferInstanceAs (Decidable (code.nesting 0 = some 0))

/-
  The first parenthesis of the code is open before each later
  token of it, and closed behind the last one.
-/
def IsEnclosed
    (code : Code) : Prop :=
  code.IsNested ∧
    ∀ left right,
      code = left ++ right → left ≠ [] → right ≠ [] →
        ∃ depth, left.nesting 0 = some (depth + 1)

theorem nesting_cons
    (depth : Nat)
    (token : Token)
    (code : Code) :
    nesting depth (token :: code) =
      (token.nest depth).bind (nesting · code) := by
  rw [nesting, List.foldlM_cons]
  rfl

theorem nesting_append
    (depth : Nat)
    (left right : Code) :
    nesting depth (left ++ right) =
      (left.nesting depth).bind (nesting · right) := by
  rw [nesting, List.foldlM_append]
  rfl

/- More parentheses around code stay open behind it. -/
theorem nesting_add
    {depth final : Nat}
    {code : Code}
    (hCode : code.nesting depth = some final)
    (more : Nat) :
    code.nesting (depth + more) = some (final + more) := by
  induction code generalizing depth with
  | nil =>
      cases hCode
      rfl
  | cons token code ih =>
      rw [nesting_cons, Option.bind_eq_some_iff] at hCode
      rcases hCode with ⟨middle, hToken, hCode⟩
      have hMore :
          token.nest (depth + more) = some (middle + more) := by
        unfold Token.nest at hToken ⊢
        grind
      rw [nesting_cons, hMore]
      exact ih hCode

/-
  A parenthesis around code that is open behind all of its
  starts has no part in it.
-/
theorem nesting_of_succ
    {depth : Nat}
    {code : Code}
    (hOpen :
      ∀ left right, code = left ++ right →
        ∃ inner, left.nesting (depth + 1) = some (inner + 1)) :
    ∃ final, code.nesting depth = some final := by
  induction code generalizing depth with
  | nil => exact ⟨depth, rfl⟩
  | cons token code ih =>
      rcases hOpen [token] code rfl with ⟨inner, hInner⟩
      rw [nesting_cons, Option.bind_eq_some_iff] at hInner
      rcases hInner with ⟨middle, hToken, hMiddle⟩
      cases hMiddle
      have hLess : token.nest depth = some inner := by
        unfold Token.nest at hToken ⊢
        grind
      rw [nesting_cons, hLess]
      refine ih fun left right hSplit => ?_
      rcases hOpen (token :: left) right (by rw [hSplit]; rfl)
        with ⟨final, hFinal⟩
      rw [nesting_cons, hToken] at hFinal
      exact ⟨final, hFinal⟩

/-
  Code between two parentheses is enclosed by them exactly when
  it is nested by itself.
-/
theorem isEnclosed_iff
    {opening closing : Token}
    (hOpening : opening.text = "(")
    (hClosing : closing.text = ")")
    {inner : Code} :
    IsEnclosed (opening :: (inner ++ [closing])) ↔
      inner.IsNested := by
  have hFirst :
      ∀ code, nesting 0 (opening :: code) = nesting 1 code := by
    intro code
    simp [nesting_cons, Token.nest, hOpening]
  have hLast :
      ∀ depth, nesting (depth + 1) [closing] = some depth := by
    intro depth
    simp [Token.nest, hClosing, nesting]
  constructor
  · rintro ⟨hNested, hOpen⟩
    have hStarts :
        ∀ left right, inner = left ++ right →
          ∃ depth, left.nesting (0 + 1) = some (depth + 1) := by
      intro left right hSplit
      rw [Nat.zero_add, ← hFirst]
      exact hOpen (opening :: left) (right ++ [closing])
        (by simp [hSplit]) (by simp) (by simp)
    rcases nesting_of_succ hStarts with ⟨final, hFinal⟩
    rw [IsNested, hFirst, nesting_append,
      nesting_add hFinal 1, Option.bind_some, hLast] at hNested
    cases hNested
    exact hFinal
  · intro hInner
    have hAround := nesting_add hInner 1
    refine ⟨?_, ?_⟩
    · rw [IsNested, hFirst, nesting_append, hAround,
        Option.bind_some, hLast]
    · intro left right hSplit hLeft hRight
      rcases List.exists_cons_of_ne_nil hLeft with
        ⟨first, left, rfl⟩
      rcases List.eq_nil_or_concat right with
        hNone | ⟨right, final, rfl⟩
      · exact absurd hNone hRight
      · rw [List.concat_eq_append, List.cons_append,
          ← List.append_assoc] at hSplit
        rcases List.cons.inj hSplit with ⟨rfl, hRest⟩
        have hSame := (List.append_inj' hRest rfl).1
        rw [IsNested, hSame, nesting_append,
          Option.bind_eq_some_iff] at hInner
        rcases hInner with ⟨depth, hDepth, _⟩
        rw [hFirst]
        exact ⟨depth, nesting_add hDepth 1⟩

/- A token that is no parenthesis may stand in front. -/
theorem isNested_cons
    {token : Token}
    (hOpening : token.text ≠ "(")
    (hClosing : token.text ≠ ")")
    (code : Code) :
    IsNested (token :: code) ↔ code.IsNested := by
  simp [IsNested, nesting_cons, Token.nest, hOpening, hClosing]

end Code

------------------------------------------------------------
-- Visibilities
------------------------------------------------------------

namespace Code

/- The visibilities that there are. -/
inductive IsProperVisibility : Code → Prop
  /- `pub` -/
  | plain
      {word : Token}
      (hWord : word.kind = .ident ∧ word.text = "pub") :
      IsProperVisibility [word]
  /- `pub(crate)`, `pub(self)` or `pub(super)` -/
  | restricted
      {word opening scope closing : Token}
      (hWord : word.kind = .ident ∧ word.text = "pub")
      (hOpening : opening.text = "(")
      (hScope :
        scope.text = "crate" ∨ scope.text = "self" ∨
          scope.text = "super")
      (hClosing : closing.text = ")") :
      IsProperVisibility [word, opening, scope, closing]
  /- `pub(in path)`, with the parentheses of the path in pairs -/
  | within
      {word opening keyword closing : Token}
      {path : Code}
      (hWord : word.kind = .ident ∧ word.text = "pub")
      (hOpening : opening.text = "(")
      (hKeyword : keyword.text = "in")
      (hPath : path ≠ [])
      (hNested : path.IsNested)
      (hClosing : closing.text = ")") :
      IsProperVisibility
        (word :: opening :: keyword :: (path ++ [closing]))

/-
  The code starts with `pub(in` and ends with a parenthesis,
  which is not the partner of the first one.
-/
def Overruns
    (code : Code) : Prop :=
  ∃ (word opening keyword closing : Token) (path : Code),
    code = word :: opening :: keyword :: (path ++ [closing]) ∧
      (word.kind = .ident ∧ word.text = "pub") ∧
      opening.text = "(" ∧
      keyword.text = "in" ∧
      closing.text = ")" ∧
      ¬ path.IsNested

/- What stands between `pub(` and the last token. -/
def restriction
    (code : Code) :
    Code :=
  (code.drop 2).dropLast

theorem restriction_concat
    (word opening : Token)
    (inner : Code)
    (closing : Token) :
    restriction (word :: opening :: (inner ++ [closing])) =
      inner :=
  List.dropLast_concat

theorem restriction_within
    {word opening keyword closing : Token}
    {path : Code}
    (hKeyword : keyword.text = "in") :
    IsNested
        (restriction
          (word :: opening :: keyword :: (path ++ [closing]))) ↔
      path.IsNested := by
  rw [← List.cons_append, restriction_concat]
  exact isNested_cons (by simp [hKeyword]) (by simp [hKeyword])
    path

/- A visibility is what passes for one and is nested inside. -/
theorem isProperVisibility_iff
    {code : Code} :
    code.IsProperVisibility ↔
      code.IsVisibility ∧ code.restriction.IsNested := by
  constructor
  · intro hProper
    cases hProper with
    | plain hWord => exact ⟨.plain hWord, rfl⟩
    | restricted hWord hOpening hScope hClosing =>
        refine ⟨.restricted hWord hOpening hScope hClosing,
          (isNested_cons ?_ ?_ []).mpr rfl⟩
        · rcases hScope with hScope | hScope | hScope <;>
            simp [hScope]
        · rcases hScope with hScope | hScope | hScope <;>
            simp [hScope]
    | within hWord hOpening hKeyword hPath hNested hClosing =>
        refine ⟨.within hWord hOpening hKeyword hPath hClosing,
          ?_⟩
        rw [restriction_within hKeyword]
        exact hNested
  · rintro ⟨hCode, hNested⟩
    cases hCode with
    | plain hWord => exact .plain hWord
    | restricted hWord hOpening hScope hClosing =>
        exact .restricted hWord hOpening hScope hClosing
    | within hWord hOpening hKeyword hPath hClosing =>
        rw [restriction_within hKeyword] at hNested
        exact .within hWord hOpening hKeyword hPath hNested
          hClosing

/- What overruns passes for a visibility and is not nested. -/
theorem overruns_iff
    {code : Code} :
    code.Overruns ↔
      code.IsVisibility ∧ ¬ code.restriction.IsNested := by
  constructor
  · rintro ⟨word, opening, keyword, closing, path, rfl, hWord,
      hOpening, hKeyword, hClosing, hUneven⟩
    have hPath : path ≠ [] := by
      rintro rfl
      exact hUneven rfl
    refine ⟨.within hWord hOpening hKeyword hPath hClosing, ?_⟩
    rw [restriction_within hKeyword]
    exact hUneven
  · rintro ⟨hCode, hUneven⟩
    by_cases hProper : code.IsProperVisibility
    · exact absurd (isProperVisibility_iff.mp hProper).2 hUneven
    · cases hCode with
      | plain hWord => exact absurd (.plain hWord) hProper
      | restricted hWord hOpening hScope hClosing =>
          exact absurd
            (.restricted hWord hOpening hScope hClosing) hProper
      | within hWord hOpening hKeyword hPath hClosing =>
          rw [restriction_within hKeyword] at hUneven
          exact ⟨_, _, _, _, _, rfl, hWord, hOpening, hKeyword,
            hClosing, hUneven⟩

instance
    (code : Code) :
    Decidable code.IsProperVisibility :=
  decidable_of_iff _ isProperVisibility_iff.symm

instance
    (code : Code) :
    Decidable code.Overruns :=
  decidable_of_iff _ overruns_iff.symm

/- What passes for a visibility is one, or it overruns. -/
theorem isVisibility_iff
    {code : Code} :
    code.IsVisibility ↔
      code.IsProperVisibility ∨ code.Overruns := by
  rw [isProperVisibility_iff, overruns_iff]
  tauto

/- No visibility overruns. -/
theorem IsProperVisibility.not_overruns
    {code : Code}
    (hProper : code.IsProperVisibility) :
    ¬ code.Overruns := by
  rw [overruns_iff]
  rintro ⟨_, hUneven⟩
  exact hUneven (isProperVisibility_iff.mp hProper).2

/-
  Of what passes for a visibility, exactly the visibilities have
  a single restriction behind their first word.
-/
theorem IsVisibility.isEnclosed_iff
    {word : Token}
    {rest : Code}
    (hCode : IsVisibility (word :: rest)) :
    rest.IsEnclosed ↔ IsProperVisibility (word :: rest) := by
  rw [isProperVisibility_iff, and_iff_right hCode]
  cases hCode with
  | plain =>
      refine iff_of_true ⟨rfl, ?_⟩ rfl
      intro left right hSplit hLeft
      exact absurd (List.append_eq_nil_iff.mp hSplit.symm).1
        hLeft
  | @restricted _ opening scope closing _ hOpening _ hClosing =>
      rw [← List.singleton_append (x := scope),
        restriction_concat]
      exact Code.isEnclosed_iff hOpening hClosing
  | within _ hOpening _ _ hClosing =>
      rw [← List.cons_append, restriction_concat]
      exact Code.isEnclosed_iff hOpening hClosing

end Code

------------------------------------------------------------
-- Leaves That Are Closed
------------------------------------------------------------

namespace Production

/- A leaf that is closed behind its code is what it builds. -/
theorem run_closed
    (leaf : Leaf)
    {code : Code}
    (hContent : code.IsContent)
    {close : Token}
    (hClose : close.closes leaf.closeTag.text)
    (rest : List Token) :
    run (ofLeaf leaf).id (code ++ close :: rest) =
      ((leaf.build code close).mapError
        (fun complaint =>
          .rejected
            ((ofLeaf leaf).failure []
              (.malformed complaint)))).map (·, rest) := by
  rw [run_eq, parse_ofLeaf]
  dsimp only
  rw [Leaf.parse_content leaf [] hContent, Leaf.parse_cons,
    List.nil_append, if_pos hClose]
  cases leaf.build code close <;> rfl

/- A leaf that is closed behind code it holds is accepted. -/
theorem run_of_holds
    {leaf : Leaf}
    {code : Code}
    {fragment : Fragment}
    (hContent : code.IsContent)
    (hHolds : leaf.Holds code fragment)
    {close : Token}
    (hClose : close.closes leaf.closeTag.text)
    (rest : List Token) :
    run (ofLeaf leaf).id (code ++ close :: rest) =
      .ok (fragment, rest) := by
  rw [run_closed leaf hContent hClose,
    Leaf.build_eq_ok_iff.mpr hHolds]
  rfl

/- A leaf that is closed behind other code is malformed. -/
theorem malformed_of_not_holds
    {leaf : Leaf}
    {code : Code}
    (hContent : code.IsContent)
    (hOther : ∀ fragment, ¬ leaf.Holds code fragment)
    {close : Token}
    (hClose : close.closes leaf.closeTag.text)
    (rest : List Token) :
    ∃ failure : Failure,
      failure.kind = .malformedLeaf ∧
        run (ofLeaf leaf).id (code ++ close :: rest) =
          .error (.rejected failure) := by
  rw [run_closed leaf hContent hClose]
  cases hBuild : leaf.build code close with
  | error complaint => exact ⟨_, rfl, rfl⟩
  | ok fragment =>
      exact absurd (Leaf.build_eq_ok_iff.mp hBuild)
        (hOther fragment)

/- A leaf that is accepted is closed behind code it holds. -/
theorem holds_of_run
    {leaf : Leaf}
    {tokens rest : List Token}
    {fragment : Fragment}
    (hRun :
      run (ofLeaf leaf).id tokens = .ok (fragment, rest)) :
    ∃ (code : Code) (close : Token),
      tokens = code ++ close :: rest ∧
        code.IsContent ∧
        close.closes leaf.closeTag.text ∧
        leaf.Holds code fragment := by
  rcases run_eq_ok_iff.mp hRun with ⟨inside, rfl, hDerives⟩
  cases hDerives with
  | @leaf _ code close _ hContent hHolds hClose =>
      exact ⟨code, close, by simp, hContent, hClose, hHolds⟩

end Production

/- The leaf of visibilities hands over its code. -/
theorem Leaf.holds_vis_iff
    {code : Code}
    {fragment : Fragment} :
    Leaf.vis.Holds code fragment ↔
      code.IsVisibility ∧ fragment = .code code := by
  constructor
  · intro hHolds
    cases hHolds with
    | vis hCode => exact ⟨hCode, rfl⟩
  · rintro ⟨hCode, rfl⟩
    exact .vis hCode

------------------------------------------------------------
-- What Is Taken For A Visibility
------------------------------------------------------------

/-
  What is accepted as a visibility is the code in front of the
  closing tag, with no other closing tag and no empty tag in it,
  and it is handed over as it is. Code that does not overrun is
  accepted exactly when it is a visibility, and is malformed
  otherwise. In a visibility all that follows `pub` stands in one
  pair of parentheses, so it is a single restriction and the
  head of a trait goes on right behind it. Code that overruns is
  accepted too, and is not closed where it ends.
-/
theorem Production.run_visibility
    (tokens : List Token) :
    (∀ (rest : List Token)
        (fragment : Fragment),
      run "vis" tokens = .ok (fragment, rest) →
        ∃ (code : Code) (close : Token),
          tokens = code ++ close :: rest ∧
            code.IsContent ∧
            close.closes "vis" ∧
            fragment = .code code ∧
            (code.IsProperVisibility ∨ code.Overruns)) ∧
    (∀ (code : Code)
        (close : Token)
        (rest : List Token),
      tokens = code ++ close :: rest →
        code.IsContent →
          close.closes "vis" →
            (¬ code.Overruns →
              (run "vis" tokens = .ok (.code code, rest) ↔
                code.IsProperVisibility) ∧
              (¬ code.IsProperVisibility →
                ∃ failure : Failure,
                  failure.kind = .malformedLeaf ∧
                    run "vis" tokens =
                      .error (.rejected failure))) ∧
            (code.Overruns →
              run "vis" tokens = .ok (.code code, rest) ∧
                ¬ code.IsProperVisibility)) ∧
    (∀ (word : Token)
        (code : Code),
      Code.IsVisibility (word :: code) →
        (code.IsEnclosed ↔
          Code.IsProperVisibility (word :: code))) ∧
    (∀ (decl : TraitDecl)
        (code : Code),
      TraitDecl.ofTokens tokens = .ok decl →
        decl.vis = some code →
          decl.header =
              code.render ++ " "
                ++ { decl with vis := none }.header ∧
            (¬ code.Overruns → code.IsProperVisibility)) := by
  refine ⟨?_, ?_, ?_, ?_⟩
  · intro rest fragment hRun
    have hLeaf :
        run (ofLeaf .vis).id tokens = .ok (fragment, rest) :=
      hRun
    rcases holds_of_run hLeaf with
      ⟨code, close, hTokens, hContent, hClose, hHolds⟩
    rcases Leaf.holds_vis_iff.mp hHolds with ⟨hCode, hFragment⟩
    exact ⟨code, close, hTokens, hContent, hClose, hFragment,
      Code.isVisibility_iff.mp hCode⟩
  · rintro code close rest rfl hContent hClose
    have hAccepted :
        code.IsVisibility →
          run "vis" (code ++ close :: rest) =
            .ok (.code code, rest) :=
      fun hCode =>
        run_of_holds hContent (.vis hCode) hClose rest
    have hRefused :
        ¬ code.IsVisibility →
          ∃ failure : Failure,
            failure.kind = .malformedLeaf ∧
              run "vis" (code ++ close :: rest) =
                .error (.rejected failure) := by
      intro hOther
      have hNone : ∀ fragment, ¬ Leaf.vis.Holds code fragment :=
        fun fragment hHolds =>
          hOther (Leaf.holds_vis_iff.mp hHolds).1
      exact malformed_of_not_holds hContent hNone hClose rest
    rw [Code.isVisibility_iff] at hAccepted hRefused
    refine ⟨fun hShort => ?_, fun hOverruns =>
      ⟨hAccepted (.inr hOverruns),
        fun hProper => hProper.not_overruns hOverruns⟩⟩
    have hMalformed :=
      fun hOther => hRefused (not_or.mpr ⟨hOther, hShort⟩)
    refine ⟨⟨fun hOutcome => ?_,
      fun hProper => hAccepted (.inl hProper)⟩, hMalformed⟩
    by_contra hOther
    rcases hMalformed hOther with ⟨failure, _, hError⟩
    rw [hOutcome] at hError
    cases hError
  · intro word code hCode
    exact hCode.isEnclosed_iff
  · intro decl code hTokens hVis
    have hCode :=
      ((TraitDecl.wellFormed_of_ofTokens hTokens).vis code
        hVis).2
    refine ⟨?_, fun hShort => ?_⟩
    · simp [TraitDecl.header, hVis, String.append_assoc]
    · exact (Code.isVisibility_iff.mp hCode).resolve_right hShort

/-
  A visibility with a path, alone and in a trait, a restriction
  that is not known, and code that goes on behind its
  restriction.
-/
theorem Production.run_visibility_path :
    let word : String → Token := fun text =>
      { kind := .ident, text := text }
    let mark : String → Token := fun text =>
      { kind := .punct, text := text }
    let path : Code :=
      [word "pub", mark "(", word "in", word "crate", mark "::",
        word "a", mark ")"]
    let unknown : Code :=
      [word "pub", mark "(", word "foo", mark ")"]
    let long : Code :=
      [word "pub", mark "(", word "in", word "a", mark ")",
        mark "(", word "b", mark ")"]
    let close : Token := .ofCloseTag "vis"
    let tokens : List Token :=
      [.ofOpenTag "trait", .ofOpenTag "name", word "T",
        .ofCloseTag "name", .ofOpenTag "vis"]
        ++ (path ++ [close, .ofCloseTag "trait"])
    run "vis" (path ++ [close]) = .ok (.code path, []) ∧
      (∃ (code : Code) (final : Token),
        path ++ [close] = code ++ [final] ∧
          (code.IsProperVisibility ∨ code.Overruns)) ∧
      Code.IsEnclosed path.tail ∧
      (∃ failure : Failure,
        failure.kind = .malformedLeaf ∧
          run "vis" (unknown ++ [close]) =
            .error (.rejected failure)) ∧
      run "vis" (long ++ [close]) = .ok (.code long, []) ∧
      ¬ Code.IsEnclosed long.tail ∧
      ∃ decl,
        TraitDecl.ofTokens tokens = .ok decl ∧
          decl.header = path.render ++ " " ++ "trait T" := by
  intro word mark path unknown long close tokens
  rcases run_visibility (path ++ [close]) with
    ⟨hShape, hSpan, hEnclosed, _⟩
  have hPath :=
    (hSpan path close [] rfl (by decide) (by decide)).1
      (by decide)
  have hUnknown :=
    ((run_visibility (unknown ++ [close])).2.1 unknown close []
      rfl (by decide) (by decide)).1 (by decide)
  have hLong :=
    ((run_visibility (long ++ [close])).2.1 long close [] rfl
      (by decide) (by decide)).2 (by decide)
  have hRun := hPath.1.mpr (by decide)
  rcases hShape _ _ hRun with
    ⟨code, final, hTokens, _, _, _, hCode⟩
  let decl : TraitDecl :=
    { name := word "T", vis := some path }
  have hDecl : TraitDecl.ofTokens tokens = .ok decl := by
    decide +kernel
  refine ⟨hRun, ⟨code, final, hTokens, hCode⟩,
    (hEnclosed (word "pub") path.tail (by decide)).mpr
      (by decide),
    hUnknown.2 (by decide), hLong.1, ?_, decl, hDecl, ?_⟩
  · rw [hEnclosed (word "pub") long.tail (by decide)]
    exact hLong.2
  · rw [((run_visibility tokens).2.2.2 decl path hDecl rfl).1]
    decide +kernel

/-
  A visibility that holds a whole trait. It is accepted, and the
  head of the trait around it is split.
-/
theorem Production.run_visibility_overrun :
    let vis := "pub(in a) trait U \x7b\x7d pub(in b)"
    (∃ tokens,
      Token.ofText none (vis ++ "</vis>") = .ok tokens ∧
        run "vis" tokens = .ok (.code tokens.dropLast, []) ∧
        Code.render tokens.dropLast = vis ∧
        ¬ Code.IsProperVisibility tokens.dropLast) ∧
    ∃ decl,
      TraitDecl.ofText none
          ("<trait><name>T</name><vis>" ++ vis
            ++ "</vis></trait>") =
          .ok decl ∧
        decl.header = vis ++ " trait T" := by
  intro vis
  have hLeaf :
      (Token.ofText none (vis ++ "</vis>")).map
          (fun tokens =>
            (decide
              (run "vis" tokens =
                .ok (.code tokens.dropLast, [])),
              Code.render tokens.dropLast,
              decide
                (Code.IsProperVisibility tokens.dropLast))) =
        .ok (true, vis, false) := by
    decide +kernel
  have hTrait :
      (TraitDecl.ofText none
          ("<trait><name>T</name><vis>" ++ vis
            ++ "</vis></trait>")).map TraitDecl.header =
        .ok (vis ++ " trait T") := by
    decide +kernel
  constructor
  · cases hTokens : Token.ofText none (vis ++ "</vis>") with
    | error stray =>
        rw [hTokens] at hLeaf
        cases hLeaf
    | ok tokens =>
        rw [hTokens] at hLeaf
        rcases Prod.mk.inj (Except.ok.inj hLeaf) with
          ⟨hRun, hRest⟩
        rcases Prod.mk.inj hRest with ⟨hRender, hProper⟩
        exact ⟨tokens, rfl, of_decide_eq_true hRun, hRender,
          of_decide_eq_false hProper⟩
  · cases hDecl :
        TraitDecl.ofText none
          ("<trait><name>T</name><vis>" ++ vis
            ++ "</vis></trait>") with
    | error fault =>
        rw [hDecl] at hTrait
        cases hTrait
    | ok decl =>
        rw [hDecl] at hTrait
        exact ⟨decl, rfl, Except.ok.inj hTrait⟩

end TraitMarkup
