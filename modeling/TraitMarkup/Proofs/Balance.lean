import TraitMarkup.Proofs.Composition

/-
  Brackets are printed in pairs.

  A reader goes through a text and holds the brackets that are
  open, the innermost first. It looks at the kinds of brackets it
  is asked to look at, one of them or several together. A text
  is balanced if the reader never meets a bracket that closes
  another than the innermost one, and holds nothing at the end.

  A declaration whose spans are balanced is printed as balanced
  text, and the last brace of the text closes the brace that
  opens the body of the trait.

  Key definitions include:
    * `Bracket`
    * `Bracket.take`
    * `Bracket.IsBalanced`

  Main declarations:
    * `Bracket.foldlM_take_below`
    * `Bracket.IsBalanced.enclose`
    * `Bracket.composes`
    * `TraitDecl.render_balanced`
-/

namespace TraitMarkup

------------------------------------------------------------
-- Reading Brackets
------------------------------------------------------------

/- The kinds of brackets. -/
inductive Bracket where
  | round
  | square
  | curly
deriving DecidableEq, Repr

namespace Bracket

/- The character that opens a bracket. -/
def opening : Bracket → Char
  | round => '('
  | square => '['
  | curly => '\x7b'

/- The character that closes a bracket. -/
def closing : Bracket → Char
  | round => ')'
  | square => ']'
  | curly => '\x7d'

/- All kinds. -/
def all : List Bracket :=
  [round, square, curly]

/- The character opens or closes a bracket of some kind. -/
def isMark
    (c : Char) :
    Bool :=
  all.any fun bracket =>
    bracket.opening = c ∨ bracket.closing = c

/-
  The brackets that are held after a character, if it may follow.
-/
def take
    (kinds held : List Bracket)
    (c : Char) :
    Option (List Bracket) :=
  match kinds.find? (·.opening = c) with
  | some opened => some (opened :: held)
  | none =>
      match kinds.find? (·.closing = c), held with
      | none, _ => some held
      | some _, [] => none
      | some closed, innermost :: outer =>
          if closed = innermost then some outer else none

/- Every bracket of these kinds has its partner in the text. -/
def IsBalanced
    (kinds : List Bracket)
    (text : String) : Prop :=
  text.toList.foldlM (take kinds) [] = some []

instance
    (kinds : List Bracket)
    (text : String) :
    Decidable (IsBalanced kinds text) :=
  inferInstanceAs
    (Decidable (text.toList.foldlM (take kinds) [] = some []))

------------------------------------------------------------
-- One Character
------------------------------------------------------------

variable {kinds : List Bracket}

/- A character that is no bracket leaves everything as it is. -/
theorem take_of_quiet
    (held : List Bracket)
    {c : Char}
    (hQuiet : isMark c = false) :
    take kinds held c = some held := by
  have hNeither :
      ∀ bracket : Bracket,
        bracket.opening ≠ c ∧ bracket.closing ≠ c := by
    simp only [isMark, all, List.any_cons, List.any_nil,
      Bool.or_false, Bool.or_eq_false_iff,
      decide_eq_false_iff_not, not_or] at hQuiet
    intro bracket
    cases bracket with
    | round => exact hQuiet.1
    | square => exact hQuiet.2.1
    | curly => exact hQuiet.2.2
  have hOpened : kinds.find? (·.opening = c) = none := by
    simp [hNeither]
  have hClosed : kinds.find? (·.closing = c) = none := by
    simp [hNeither]
  simp [take, hOpened, hClosed]

/- What is held with a bracket, if the reader looks at it. -/
def hold
    (kinds held : List Bracket)
    (bracket : Bracket) :
    List Bracket :=
  if bracket ∈ kinds then bracket :: held else held

/- A bracket is found by its character, if it is there. -/
theorem find?_char
    {char : Bracket → Char}
    (hDistinct : Function.Injective char)
    (bracket : Bracket) :
    kinds.find? (fun other => char other = char bracket) =
      if bracket ∈ kinds then some bracket else none := by
  induction kinds with
  | nil => simp
  | cons kind kinds ih =>
      rw [List.find?_cons, ih]
      by_cases hSame : kind = bracket
      · simp [hSame]
      · have hOther : char kind ≠ char bracket :=
          fun hChar => hSame (hDistinct hChar)
        simp [hOther, Ne.symm hSame]

theorem opening_injective : Function.Injective opening := by
  intro left right
  cases left <;> cases right <;> decide

theorem closing_injective : Function.Injective closing := by
  intro left right
  cases left <;> cases right <;> decide

theorem opening_ne_closing
    (left right : Bracket) :
    left.opening ≠ right.closing := by
  cases left <;> cases right <;> decide

/- An opening bracket is held. -/
theorem take_opening
    (held : List Bracket)
    (bracket : Bracket) :
    take kinds held bracket.opening =
      some (hold kinds held bracket) := by
  have hClosed :
      kinds.find? (·.closing = bracket.opening) = none := by
    simp [(opening_ne_closing bracket _).symm]
  unfold take hold
  rw [find?_char opening_injective, hClosed]
  by_cases hKind : bracket ∈ kinds
  · simp [hKind]
  · simp [hKind]

/- A closing bracket lets go of its partner. -/
theorem take_closing
    (held : List Bracket)
    (bracket : Bracket) :
    take kinds (hold kinds held bracket) bracket.closing =
      some held := by
  have hOpened :
      kinds.find? (·.opening = bracket.closing) = none := by
    simp [opening_ne_closing]
  unfold take hold
  rw [find?_char closing_injective, hOpened]
  by_cases hKind : bracket ∈ kinds
  · simp [hKind]
  · simp [hKind]

/- What is held further out does not matter to a character. -/
theorem take_below
    (below : List Bracket)
    {held after : List Bracket}
    {c : Char}
    (hTake : take kinds held c = some after) :
    take kinds (held ++ below) c = some (after ++ below) := by
  unfold take at hTake ⊢
  cases hOpened : kinds.find? (·.opening = c) with
  | some opened =>
      simp only [hOpened, Option.some.injEq] at hTake ⊢
      rw [← hTake, List.cons_append]
  | none =>
      cases hClosed : kinds.find? (·.closing = c) with
      | none =>
          simp only [hOpened, hClosed, Option.some.injEq]
            at hTake ⊢
          rw [hTake]
      | some closed =>
          cases held with
          | nil => simp [hOpened, hClosed] at hTake
          | cons innermost outer =>
              simp only [hOpened, hClosed, List.cons_append,
                Option.ite_none_right_eq_some,
                Option.some.injEq] at hTake ⊢
              exact ⟨hTake.1, by rw [hTake.2]⟩

------------------------------------------------------------
-- Whole Texts
------------------------------------------------------------

/- What is held further out does not matter to a text. -/
theorem foldlM_take_below
    (below : List Bracket)
    {held after : List Bracket}
    {chars : List Char}
    (hRead : chars.foldlM (take kinds) held = some after) :
    chars.foldlM (take kinds) (held ++ below) =
      some (after ++ below) := by
  induction chars generalizing held with
  | nil =>
      cases hRead
      rfl
  | cons c chars ih =>
      rw [List.foldlM_cons, Option.bind_eq_bind,
        Option.bind_eq_some_iff] at hRead
      rcases hRead with ⟨middle, hTake, hRest⟩
      rw [List.foldlM_cons, take_below below hTake]
      exact ih hRest

namespace IsBalanced

theorem of_quiet
    {text : String}
    (hQuiet : IsQuiet isMark text) :
    IsBalanced kinds text := by
  unfold IsBalanced
  unfold IsQuiet at hQuiet
  generalize text.toList = chars at hQuiet
  induction chars with
  | nil => rfl
  | cons c chars ih =>
      rw [List.forall_mem_cons] at hQuiet
      rw [List.foldlM_cons, take_of_quiet [] hQuiet.1]
      exact ih hQuiet.2

theorem append
    {left right : String}
    (hLeft : IsBalanced kinds left)
    (hRight : IsBalanced kinds right) :
    IsBalanced kinds (left ++ right) := by
  unfold IsBalanced at hLeft hRight ⊢
  rw [String.toList_append, List.foldlM_append, hLeft]
  exact hRight

/- A text between two partners. -/
theorem enclose
    (bracket : Bracket)
    {text : String}
    (hText : IsBalanced kinds text) :
    IsBalanced kinds
      (String.singleton bracket.opening ++ text
        ++ String.singleton bracket.closing) := by
  have hInner :=
    foldlM_take_below (hold kinds [] bracket) hText
  rw [List.nil_append] at hInner
  unfold IsBalanced
  simp [hInner, take_opening, take_closing]

end IsBalanced

------------------------------------------------------------
-- Printed Traits
------------------------------------------------------------

/- Balanced spans make balanced texts. -/
theorem composes
    (kinds : List Bracket) :
    let Holds : List Code → String → Prop :=
      fun spans text =>
        (∀ span ∈ spans, IsBalanced kinds span.render) →
          IsBalanced kinds text
    Composes isMark Holds Holds := by
  intro Holds
  have hAppend :
      ∀ {left text right more},
        Holds left text → Holds right more →
          Holds (left ++ right) (text ++ more) := by
    intro left text right more hText hMore hSpans
    rw [List.forall_mem_append] at hSpans
    exact (hText hSpans.1).append (hMore hSpans.2)
  have hEnclose :
      ∀ (bracket : Bracket) {spans text},
        Holds spans text →
          Holds spans
            (String.singleton bracket.opening ++ text
              ++ String.singleton bracket.closing) := by
    intro bracket spans text hText hSpans
    exact (hText hSpans).enclose bracket
  refine
    { marks := ?_
      span := ?_
      quiet := ?_
      lead := ?_
      weaken := id
      append := hAppend
      follow := hAppend
      round := hEnclose round
      curly := hEnclose curly }
  · intro c hMark
    simp only [isMark, all, List.any_cons, List.any_nil,
      Bool.or_false, Bool.or_eq_true, decide_eq_true_eq]
      at hMark
    rcases hMark with (rfl | rfl) | (rfl | rfl) | (rfl | rfl)
      <;> decide
  · intro code hSpans
    exact hSpans code (by simp)
  · intro text hQuiet _
    exact .of_quiet hQuiet
  · intro word spans text hWord _ hText hSpans
    exact (IsBalanced.of_quiet hWord).append (hText hSpans)

end Bracket

/-
  If every span of a declaration is balanced and the indent has
  no brackets, the printed text is balanced: for all kinds of
  brackets together, and for each of them alone. The text in
  front of the body and the text inside the body are balanced by
  themselves, so the last brace closes the first of the body.
-/
theorem TraitDecl.render_balanced
    (kinds : List Bracket)
    (decl : TraitDecl)
    (layout : Layout)
    (hIndent : IsQuiet Bracket.isMark layout.indent)
    (hSpans :
      ∀ span ∈ decl.spans,
        Bracket.IsBalanced kinds span.render) :
    Bracket.IsBalanced kinds (decl.render layout) ∧
      decl.render layout =
        decl.front layout ++ "\x7b" ++ decl.inside layout
          ++ "\x7d" ++ layout.ending ∧
      Bracket.IsBalanced kinds (decl.front layout) ∧
      Bracket.IsBalanced kinds (decl.inside layout) ∧
      IsQuiet Bracket.isMark layout.ending := by
  have laws := Bracket.composes kinds
  have hParts := hSpans
  unfold spans at hParts
  rw [List.forall_mem_append] at hParts
  refine ⟨?_, ?_, ?_, ?_, ?_⟩
  · exact laws.render decl hIndent hSpans
  · exact decl.render_eq layout
  · exact laws.front decl hIndent hParts.1
  · exact laws.inside decl hIndent hParts.2
  · unfold Layout.ending
    split <;> decide

/-
  A constant with a clause in front of it and a function with a
  body: brackets of all kinds, one inside the other.
-/
theorem TraitDecl.render_balanced_array :
    let word : String → Token := fun text =>
      { kind := .ident, text := text }
    let mark : String → Token := fun text =>
      { kind := .punct, text := text }
    let array : Code :=
      [mark "[", word "u8", mark ";", mark "(", word "N",
        mark ")", mark "]"]
    let decl : TraitDecl :=
      { name := word "T"
        clauses := [.type { type := [word "Self"] }]
        consts :=
          [{ name := word "A", type := array, value := none }]
        fns :=
          [{ name := word "f"
             args := [{ arg := [word "a"], type := array }]
             body := some [mark "\x7b", mark "\x7d"] }] }
    (∀ span ∈ decl.spans,
      Bracket.IsBalanced Bracket.all span.render) ∧
      Bracket.IsBalanced Bracket.all (decl.render {}) := by
  intro word mark array decl
  have hSpans :
      ∀ span ∈ decl.spans,
        Bracket.IsBalanced Bracket.all span.render := by
    decide
  have hIndent :
      IsQuiet Bracket.isMark ({} : Layout).indent := by
    decide
  exact ⟨hSpans,
    (render_balanced Bracket.all decl {} hIndent hSpans).1⟩

end TraitMarkup
