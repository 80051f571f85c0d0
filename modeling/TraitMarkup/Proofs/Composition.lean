import TraitMarkup.Proofs.Spans
import TraitMarkup.Rust.Printer

/-
  How printed text is put together.

  The printer puts the spans of a declaration one behind the
  other, with words of its own between them. The words are quiet
  but for the parentheses around arguments and the braces around
  bodies, and these come in pairs.

  A property of texts that goes along with putting them together
  in this way holds of every printed declaration. The induction
  over the parts of a declaration is done here, once for all of
  these properties.

  Key definitions include:
    * `String.IsQuiet`
    * `Line.stack`
    * `TraitDecl.front`, `TraitDecl.inside`
    * `Composes`

  Main declarations:
    * `TraitDecl.render_eq`
    * `Composes.front`
    * `Composes.inside`
    * `Composes.render`
-/

namespace TraitMarkup

------------------------------------------------------------
-- Quiet Words
------------------------------------------------------------

/- No character of the text is a mark. -/
def IsQuiet
    (isMark : Char → Bool)
    (text : String) : Prop :=
  ∀ c ∈ text.toList, isMark c = false

instance
    (isMark : Char → Bool)
    (text : String) :
    Decidable (IsQuiet isMark text) :=
  List.decidableBAll (isMark · = false) text.toList

namespace IsQuiet

variable {isMark : Char → Bool}

theorem append
    {left right : String}
    (hLeft : IsQuiet isMark left)
    (hRight : IsQuiet isMark right) :
    IsQuiet isMark (left ++ right) := by
  unfold IsQuiet
  rw [String.toList_append]
  exact List.forall_mem_append.mpr ⟨hLeft, hRight⟩

/- A quiet text stays quiet when it is repeated. -/
theorem replicate
    {text : String}
    (hText : IsQuiet isMark text)
    (n : Nat) :
    IsQuiet isMark
      (String.join (List.replicate n text)) := by
  induction n with
  | zero =>
      intro c hMember
      simp at hMember
  | succ n ih =>
      rw [List.replicate_succ, String.join_cons]
      exact hText.append ih

end IsQuiet

/- A bracket, or a character of a comment mark. -/
def isAnyMark
    (c : Char) :
    Bool :=
  ['(', ')', '[', ']', '\x7b', '\x7d', '/', '*'].contains c

/- The text has no marks at all. -/
def IsPlain
    (text : String) : Prop :=
  IsQuiet isAnyMark text

instance
    (text : String) :
    Decidable (IsPlain text) :=
  inferInstanceAs (Decidable (IsQuiet isAnyMark text))

/- The text is there, and has no marks. -/
def IsWord
    (text : String) : Prop :=
  text ≠ "" ∧ IsPlain text

instance
    (text : String) :
    Decidable (IsWord text) :=
  inferInstanceAs (Decidable (text ≠ "" ∧ IsPlain text))

------------------------------------------------------------
-- Lines One Below The Other
------------------------------------------------------------

namespace Line

/- The lines, each on a line of its own behind some text. -/
def stack
    (margin unit : String)
    (lines : List Line) :
    String :=
  String.join
    (lines.map fun line => "\n" ++ line.render margin unit)

theorem stack_nil
    (margin unit : String) :
    stack margin unit [] = "" :=
  rfl

theorem stack_cons
    (margin unit : String)
    (line : Line)
    (lines : List Line) :
    stack margin unit (line :: lines) =
      "\n" ++ line.render margin unit
        ++ stack margin unit lines := by
  rw [stack, List.map_cons, String.join_cons]
  rfl

theorem stack_append
    (margin unit : String)
    (left right : List Line) :
    stack margin unit (left ++ right) =
      stack margin unit left ++ stack margin unit right := by
  induction left with
  | nil => simp [stack_nil]
  | cons line left ih =>
      rw [List.cons_append, stack_cons, stack_cons, ih,
        String.append_assoc, String.append_assoc,
        String.append_assoc]

/- A line on the margin. -/
theorem render_zero
    (margin unit text : String) :
    render margin unit ⟨0, text⟩ = margin ++ text := by
  simp [render]

/- A line one level deeper has one more unit in its margin. -/
theorem render_deeper
    (margin unit : String)
    (line : Line) :
    line.deeper.render margin unit =
      line.render (margin ++ unit) unit := by
  simp [render, deeper, List.replicate_succ,
    String.append_assoc]

/- Lines one level deeper have one more unit in their margin. -/
theorem stack_deeper
    (margin unit : String)
    (lines : List Line) :
    stack margin unit (lines.map deeper) =
      stack (margin ++ unit) unit lines := by
  rw [stack, stack, List.map_map]
  congr 2
  funext line
  rw [Function.comp_apply, render_deeper]

/- Lines with newlines between them. -/
theorem intercalate_map_render
    (margin unit : String)
    (line : Line)
    (lines : List Line) :
    String.intercalate "\n"
        ((line :: lines).map (render margin unit)) =
      line.render margin unit
        ++ stack margin unit lines := by
  induction lines generalizing line with
  | nil => simp [stack_nil]
  | cons next lines ih =>
      have hRest := ih next
      rw [List.map_cons] at hRest
      rw [List.map_cons, List.map_cons,
        String.intercalate_cons_cons, hRest, stack_cons,
        String.append_assoc, String.append_assoc]

end Line

/- What stands between a head and the opening of its body. -/
def openingGap
    (margin unit : String) :
    List WhereClause → String
  | [] => " "
  | clauses@(_ :: _) =>
      Line.stack margin unit (WhereClause.lines "," clauses)
        ++ ("\n" ++ margin)

/- A head and an opening below some text. -/
theorem Line.stack_openingLines
    (margin unit head opening : String)
    (clauses : List WhereClause) :
    stack margin unit (openingLines head opening clauses) =
      "\n" ++ margin ++ head
        ++ openingGap margin unit clauses ++ opening := by
  cases clauses with
  | nil =>
      simp [openingLines, openingGap, stack_cons, stack_nil,
        render_zero, String.append_assoc]
  | cons clause clauses =>
      simp [openingLines, openingGap, stack_cons, stack_nil,
        stack_append, render_zero, String.append_assoc]

/- A head and an opening at the start of a text. -/
theorem Line.intercalate_openingLines
    (unit head opening : String)
    (clauses : List WhereClause)
    (more : List Line) :
    String.intercalate "\n"
        ((openingLines head opening clauses ++ more).map
          (render "" unit)) =
      head ++ openingGap "" unit clauses ++ opening
        ++ stack "" unit more := by
  cases clauses with
  | nil =>
      rw [openingLines, List.singleton_append,
        intercalate_map_render, render_zero, openingGap,
        String.empty_append]
  | cons clause clauses =>
      rw [openingLines, List.append_assoc, List.cons_append,
        intercalate_map_render, stack_append, stack_append,
        render_zero, stack_cons, stack_nil, render_zero,
        openingGap]
      simp [String.append_assoc]

------------------------------------------------------------
-- A Trait Around Its Body
------------------------------------------------------------

/- What a layout puts at the end. -/
def Layout.ending
    (layout : Layout) :
    String :=
  if layout.trailingNewline then "\n" else ""

/- Lines under a layout: newlines between them, then the end. -/
theorem Layout.render_eq
    (layout : Layout)
    (lines : List Line) :
    layout.render lines =
      String.intercalate "\n"
          (lines.map (Line.render "" layout.indent))
        ++ layout.ending := by
  unfold render ending
  split
  · rfl
  · rw [String.append_empty]

namespace TraitDecl

/- The text of a trait up to the brace that opens its body. -/
def front
    (decl : TraitDecl)
    (layout : Layout) :
    String :=
  decl.header ++ openingGap "" layout.indent decl.clauses

/- The text of a trait between the braces of its body. -/
def inside
    (decl : TraitDecl)
    (layout : Layout) :
    String :=
  match decl.itemLines with
  | [] => ""
  | items@(_ :: _) =>
      Line.stack layout.indent layout.indent items ++ "\n"

/- A trait is its front, and its items in braces. -/
theorem render_eq
    (decl : TraitDecl)
    (layout : Layout) :
    decl.render layout =
      decl.front layout ++ "\x7b" ++ decl.inside layout
        ++ "\x7d" ++ layout.ending := by
  have hText :
      String.intercalate "\n"
          (decl.lines.map (Line.render "" layout.indent)) =
        decl.front layout ++ "\x7b" ++ decl.inside layout
          ++ "\x7d" := by
    unfold lines inside front
    cases decl.itemLines with
    | nil =>
        have hOpening :=
          Line.intercalate_openingLines layout.indent
            decl.header "\x7b\x7d" decl.clauses []
        rw [List.append_nil, Line.stack_nil,
          String.append_empty] at hOpening
        rw [hOpening]
        simp [String.append_assoc]
    | cons first rest =>
        dsimp only
        rw [List.append_assoc, Line.intercalate_openingLines,
          Line.stack_append, Line.stack_deeper]
        simp [Line.stack_cons, Line.stack_nil,
          Line.render_zero, String.append_assoc]
  rw [render, Layout.render_eq, hText]

end TraitDecl

------------------------------------------------------------
-- Properties That Compose
------------------------------------------------------------

/-
  Two properties of spans and the text they are printed as, the
  second for texts that may stand right behind another text. A
  text with spans may do so if a word or a bracket stands in
  front of them. The properties are about marks; any word
  without marks is as good as another.
-/
structure Composes
    (isMark : Char → Bool)
    (Holds Follows : List Code → String → Prop) : Prop where
  marks : ∀ c, isMark c → isAnyMark c
  span : ∀ code : Code, Holds [code] code.render
  quiet :
    ∀ {text}, IsQuiet isMark text → Follows [] text
  lead :
    ∀ {word spans text},
      IsQuiet isMark word → word ≠ "" → Holds spans text →
        Follows spans (word ++ text)
  weaken : ∀ {spans text}, Follows spans text → Holds spans text
  append :
    ∀ {left text right more},
      Holds left text → Follows right more →
        Holds (left ++ right) (text ++ more)
  follow :
    ∀ {left text right more},
      Follows left text → Follows right more →
        Follows (left ++ right) (text ++ more)
  round :
    ∀ {spans text},
      Holds spans text → Follows spans ("(" ++ text ++ ")")
  curly :
    ∀ {spans text},
      Holds spans text →
        Follows spans ("\x7b" ++ text ++ "\x7d")

namespace Composes

variable {isMark : Char → Bool}
variable {Holds Follows : List Code → String → Prop}

/- A plain word is quiet, whatever the marks are. -/
theorem isQuiet
    (laws : Composes isMark Holds Follows)
    {word : String}
    (hWord : IsPlain word) :
    IsQuiet isMark word := by
  intro c hMember
  have hPlain := hWord c hMember
  cases hMark : isMark c with
  | false => rfl
  | true =>
      rw [laws.marks c hMark] at hPlain
      cases hPlain

/- A plain word may stand anywhere. -/
theorem plain
    (laws : Composes isMark Holds Follows)
    (word : String)
    (hWord : IsPlain word) :
    Follows [] word :=
  laws.quiet (laws.isQuiet hWord)

/- A text behind a plain word. -/
theorem after
    (laws : Composes isMark Holds Follows)
    (word : String)
    (hWord : IsWord word)
    {spans : List Code}
    {text : String}
    (hText : Holds spans text) :
    Follows spans (word ++ text) :=
  laws.lead (laws.isQuiet hWord.2) hWord.1 hText

/- A plain word behind a text adds no span. -/
theorem close
    (laws : Composes isMark Holds Follows)
    {spans : List Code}
    {text word : String}
    (hText : Holds spans text)
    (hWord : IsPlain word) :
    Holds spans (text ++ word) := by
  have hBoth := laws.append hText (laws.plain word hWord)
  rwa [List.append_nil] at hBoth

/- A quiet word behind a text that follows adds no span. -/
theorem followClose
    (laws : Composes isMark Holds Follows)
    {spans : List Code}
    {text word : String}
    (hText : Follows spans text)
    (hWord : IsQuiet isMark word) :
    Follows spans (text ++ word) := by
  have hBoth := laws.follow hText (laws.quiet hWord)
  rwa [List.append_nil] at hBoth

/- A single token. -/
theorem word
    (laws : Composes isMark Holds Follows)
    (token : Token) :
    Holds [token.alone] token.text := by
  have hSpan := laws.span token.alone
  rwa [Token.render_alone] at hSpan

/- Texts with a quiet separator between them. -/
theorem joined
    (laws : Composes isMark Holds Follows)
    {α : Type}
    {spans : α → List Code}
    {text : α → String}
    (separator : String)
    (hWord : IsWord separator)
    (hEach : ∀ value, Holds (spans value) (text value))
    (values : List α) :
    Holds (values.flatMap spans)
      (separator.intercalate (values.map text)) := by
  induction values with
  | nil => exact laws.weaken (laws.plain "" (by decide))
  | cons value values ih =>
      cases values with
      | nil =>
          rw [List.flatMap_singleton, List.map_singleton,
            String.intercalate_singleton]
          exact hEach value
      | cons next values =>
          rw [List.flatMap_cons, List.map_cons, List.map_cons,
            String.intercalate_cons_cons, String.append_assoc]
          exact laws.append (hEach value)
            (laws.after separator hWord ih)

/- Tokens with a quiet separator between them. -/
theorem tokens
    (laws : Composes isMark Holds Follows)
    (separator : String)
    (hWord : IsWord separator)
    (tokens : List Token) :
    Holds (tokens.map Token.alone)
      (joinTokens separator tokens) := by
  have hJoined :=
    laws.joined separator hWord laws.word tokens
  rwa [← List.map_eq_flatMap] at hJoined

/- A colon in front of bounds, or nothing. -/
theorem colon
    (laws : Composes isMark Holds Follows)
    {α : Type}
    {spans : List α → List Code}
    {toRust : List α → String}
    (hNone : spans [] = [])
    (hText : ∀ bounds, Holds (spans bounds) (toRust bounds))
    (bounds : List α) :
    Follows (spans bounds) (afterColon toRust bounds) := by
  cases bounds with
  | nil =>
      rw [hNone]
      exact laws.plain "" (by decide)
  | cons bound bounds =>
      exact laws.after ": " (by decide) (hText _)

------------------------------------------------------------
-- Bounds, Parameters And Clauses
------------------------------------------------------------

theorem traitBound
    (laws : Composes isMark Holds Follows)
    (bound : TraitBound) :
    Holds bound.spans bound.toRust := by
  unfold TraitBound.toRust
  split
  · exact laws.weaken
      (laws.after "?" (by decide)
        (laws.span bound.path))
  · exact laws.span bound.path

/- What a `for` binds, in front of a text. -/
theorem binder
    (laws : Composes isMark Holds Follows)
    (lifetimes : List Token)
    {spans : List Code}
    {text : String}
    (hText : Holds spans text) :
    Holds (lifetimes.map Token.alone ++ spans)
      (forText lifetimes ++ text) := by
  unfold forText
  rw [String.append_assoc, String.append_assoc]
  rw [← String.append_assoc]
  refine laws.append ?_
    (laws.after "> " (by decide) hText)
  exact laws.weaken
    (laws.after "for<" (by decide)
      (laws.tokens ", " (by decide) lifetimes))

theorem bound
    (laws : Composes isMark Holds Follows)
    (bound : Bound) :
    Holds bound.spans bound.toRust := by
  cases bound with
  | trait inner => exact laws.traitBound inner
  | lifetime name => exact laws.word name
  | forAll lifetimes inner =>
      exact laws.binder lifetimes (laws.traitBound inner)

theorem bounds
    (laws : Composes isMark Holds Follows)
    (bounds : List Bound) :
    Holds (bounds.flatMap Bound.spans)
      (Bound.listToRust bounds) :=
  laws.joined " + " (by decide) laws.bound bounds

theorem traitBounds
    (laws : Composes isMark Holds Follows)
    (bounds : List TraitBound) :
    Follows (bounds.flatMap TraitBound.spans)
      (afterColon TraitBound.listToRust bounds) :=
  laws.colon rfl
    (laws.joined " + " (by decide) laws.traitBound)
    bounds

theorem param
    (laws : Composes isMark Holds Follows)
    (param : GenericParam) :
    Holds param.spans param.toRust := by
  cases param with
  | lifetime name bounds =>
      exact laws.append (laws.word name)
        (laws.colon rfl
          (laws.tokens " + " (by decide)) bounds)
  | type name bounds =>
      exact laws.append (laws.word name)
        (laws.colon rfl laws.bounds bounds)
  | const name valueType =>
      have hName :=
        laws.weaken
          (laws.after "const " (by decide) (laws.word name))
      have hWhole :=
        laws.append hName
          (laws.after ": " (by decide) (laws.span valueType))
      rwa [← String.append_assoc] at hWhole

/- Parameters in angle brackets, or nothing. -/
theorem params
    (laws : Composes isMark Holds Follows)
    (params : List GenericParam) :
    Follows (params.flatMap GenericParam.spans)
      (GenericParam.listToRust params) := by
  cases params with
  | nil => exact laws.plain "" (by decide)
  | cons param params =>
      exact laws.followClose
        (laws.after "<" (by decide)
          (laws.joined ", " (by decide) laws.param _))
        (laws.isQuiet (by decide))

theorem typeClause
    (laws : Composes isMark Holds Follows)
    (clause : TypeClause) :
    Holds clause.spans clause.toRust := by
  rcases clause with ⟨type, bounds⟩
  cases bounds with
  | nil => exact laws.close (laws.span type) (by decide)
  | cons bound bounds =>
      change Holds ([type] ++ _) (_ ++ ": " ++ _)
      rw [String.append_assoc]
      exact laws.append (laws.span type)
        (laws.after ": " (by decide)
          (laws.bounds (bound :: bounds)))

theorem whereClause
    (laws : Composes isMark Holds Follows)
    (clause : WhereClause) :
    Holds clause.spans clause.toRust := by
  cases clause with
  | lifetime name bounds =>
      have hWhole :=
        laws.append (laws.word name)
          (laws.after ": " (by decide)
            (laws.tokens " + " (by decide) bounds))
      rwa [← String.append_assoc] at hWhole
  | type inner => exact laws.typeClause inner
  | forAll lifetimes inner =>
      exact laws.binder lifetimes (laws.typeClause inner)

------------------------------------------------------------
-- Lines Of Items
------------------------------------------------------------

variable {margin unit : String}

/- A line below some text. -/
theorem line
    (laws : Composes isMark Holds Follows)
    (hMargin : IsQuiet isMark margin)
    (hUnit : IsQuiet isMark unit)
    (depth : Nat)
    {spans : List Code}
    {text : String}
    (hText : Holds spans text) :
    Follows spans
      ("\n" ++ Line.render margin unit ⟨depth, text⟩) := by
  unfold Line.render
  rw [← String.append_assoc]
  refine laws.lead ?_ ?_ hText
  · exact (laws.isQuiet (by decide)).append
      (hMargin.append (hUnit.replicate depth))
  · intro hEmpty
    have hList := congrArg String.toList hEmpty
    simp at hList

/- The clauses of a where section, below some text. -/
theorem clauseLines
    (laws : Composes isMark Holds Follows)
    (hMargin : IsQuiet isMark margin)
    (hUnit : IsQuiet isMark unit)
    {stop : String}
    (hStop : IsPlain stop)
    (clauses : List WhereClause) :
    Follows (clauses.flatMap WhereClause.spans)
      (Line.stack margin unit
        (WhereClause.clauseLines stop clauses)) := by
  induction clauses with
  | nil => exact laws.plain "" (by decide)
  | cons clause clauses ih =>
      cases clauses with
      | nil =>
          rw [List.flatMap_singleton, WhereClause.clauseLines,
            Line.stack_cons, Line.stack_nil,
            String.append_empty]
          exact laws.line hMargin hUnit 1
            (laws.close (laws.whereClause clause) hStop)
      | cons next clauses =>
          rw [List.flatMap_cons, WhereClause.clauseLines,
            Line.stack_cons]
          · refine laws.follow ?_ ih
            exact laws.line hMargin hUnit 1
              (laws.close (laws.whereClause clause) (by decide))
          · intro hNone
            cases hNone

/- A where section below some text. -/
theorem whereLines
    (laws : Composes isMark Holds Follows)
    (hMargin : IsQuiet isMark margin)
    (hUnit : IsQuiet isMark unit)
    {stop : String}
    (hStop : IsPlain stop)
    (clauses : List WhereClause) :
    Follows (clauses.flatMap WhereClause.spans)
      (Line.stack margin unit
        (WhereClause.lines stop clauses)) := by
  cases clauses with
  | nil => exact laws.plain "" (by decide)
  | cons clause clauses =>
      rw [WhereClause.lines, Line.stack_cons]
      have hWhere :=
        laws.line hMargin hUnit 0
          (laws.weaken (laws.plain "where" (by decide)))
      have hBoth :=
        laws.follow hWhere
          (laws.clauseLines hMargin hUnit hStop
            (clause :: clauses))
      rwa [List.nil_append] at hBoth

/- An item without a body, below some text. -/
theorem bodyless
    (laws : Composes isMark Holds Follows)
    (hMargin : IsQuiet isMark margin)
    (hUnit : IsQuiet isMark unit)
    {spans : List Code}
    {head : String}
    (hHead : Holds spans head)
    (clauses : List WhereClause) :
    Follows (spans ++ clauses.flatMap WhereClause.spans)
      (Line.stack margin unit
        (bodylessLines head clauses)) := by
  cases clauses with
  | nil =>
      rw [bodylessLines, Line.stack_cons, Line.stack_nil,
        List.flatMap_nil, List.append_nil, String.append_empty]
      exact laws.line hMargin hUnit 0
        (laws.close hHead (by decide))
  | cons clause clauses =>
      rw [bodylessLines, Line.stack_cons]
      exact laws.follow (laws.line hMargin hUnit 0 hHead)
        (laws.whereLines hMargin hUnit (by decide) _)

/- What stands between a head and the opening of its body. -/
theorem gap
    (laws : Composes isMark Holds Follows)
    (hMargin : IsQuiet isMark margin)
    (hUnit : IsQuiet isMark unit)
    (clauses : List WhereClause) :
    Follows (clauses.flatMap WhereClause.spans)
      (openingGap margin unit clauses) := by
  cases clauses with
  | nil => exact laws.plain " " (by decide)
  | cons clause clauses =>
      exact laws.followClose
        (laws.whereLines hMargin hUnit (by decide) _)
        ((laws.isQuiet (by decide)).append hMargin)

theorem assocType
    (laws : Composes isMark Holds Follows)
    (hMargin : IsQuiet isMark margin)
    (hUnit : IsQuiet isMark unit)
    (item : AssocType) :
    Follows item.spans (Line.stack margin unit item.lines) := by
  have hHead :
      Holds
        ([item.name.alone]
          ++ item.params.flatMap GenericParam.spans
          ++ item.bounds.flatMap TraitBound.spans)
        item.head :=
    laws.append
      (laws.append
        (laws.weaken
          (laws.after "type " (by decide)
            (laws.word item.name)))
        (laws.params item.params))
      (laws.traitBounds item.bounds)
  exact laws.bodyless hMargin hUnit hHead item.clauses

theorem assocConst
    (laws : Composes isMark Holds Follows)
    (hMargin : IsQuiet isMark margin)
    (hUnit : IsQuiet isMark unit)
    (item : AssocConst) :
    Follows item.spans (Line.stack margin unit item.lines) := by
  rcases item with ⟨name, type, value⟩
  have hHead :
      Holds ([name.alone] ++ [type])
        ("const " ++ name.text ++ (": " ++ type.render)) :=
    laws.append
      (laws.weaken
        (laws.after "const " (by decide) (laws.word name)))
      (laws.after ": " (by decide) (laws.span type))
  rw [← String.append_assoc] at hHead
  cases value with
  | none =>
      rw [AssocConst.lines, Line.stack_cons, Line.stack_nil,
        String.append_empty]
      exact laws.line hMargin hUnit 0
        (laws.close hHead (by decide))
  | some value =>
      have hWhole :=
        laws.append hHead
          (laws.after " = " (by decide)
            (laws.span value))
      rw [← String.append_assoc] at hWhole
      rw [AssocConst.lines, Line.stack_cons, Line.stack_nil,
        String.append_empty]
      exact laws.line hMargin hUnit 0
        (laws.close hWhole (by decide))

theorem fnParam
    (laws : Composes isMark Holds Follows)
    (param : FnParam) :
    Holds param.spans param.toRust := by
  unfold FnParam.toRust
  rw [String.append_assoc]
  exact laws.append (laws.span param.arg)
    (laws.after ": " (by decide) (laws.span param.type))

theorem qualifiers
    (laws : Composes isMark Holds Follows)
    (qualifiers : Qualifiers) :
    Follows qualifiers.spans qualifiers.toRust := by
  rcases qualifiers with ⟨isUnsafe, abi⟩
  have hUnsafe :
      Follows [] (if isUnsafe then "unsafe " else "") := by
    cases isUnsafe with
    | false => exact laws.plain "" (by decide)
    | true => exact laws.plain "unsafe " (by decide)
  have hAbi :
      Follows (Qualifiers.spans ⟨isUnsafe, abi⟩)
        (abi.elim ""
          fun abi => "extern " ++ abi.text ++ " ") := by
    cases abi with
    | none => exact laws.plain "" (by decide)
    | some abi =>
        exact laws.followClose
          (laws.after "extern " (by decide) (laws.word abi))
          (laws.isQuiet (by decide))
  have hRust :
      Qualifiers.toRust ⟨isUnsafe, abi⟩ =
        (if isUnsafe then "unsafe " else "")
          ++ abi.elim "" fun abi =>
            "extern " ++ abi.text ++ " " := by
    unfold Qualifiers.toRust
    cases abi <;> rfl
  rw [hRust]
  exact laws.follow hUnsafe hAbi

/- The head of a function, with its arguments in parentheses. -/
theorem fnHead
    (laws : Composes isMark Holds Follows)
    (item : AssocFn) :
    Holds
      (item.qualifiers.spans ++ [item.name.alone]
        ++ item.params.flatMap GenericParam.spans
        ++ item.args.flatMap FnParam.spans
        ++ item.ret.toList)
      item.head := by
  have hRet :
      Follows item.ret.toList
        (item.ret.elim "" fun ret => " -> " ++ ret.render) := by
    cases item.ret with
    | none => exact laws.plain "" (by decide)
    | some ret =>
        exact laws.after " -> " (by decide)
          (laws.span ret)
  have hArgs :=
    laws.round
      (laws.joined ", " (by decide)
        laws.fnParam item.args)
  have hName :=
    laws.after "fn " (by decide)
      (laws.word item.name)
  have hFront :=
    laws.append
      (laws.append
        (laws.weaken (laws.follow
          (laws.qualifiers item.qualifiers) hName))
        (laws.params item.params))
      hArgs
  have hWhole := laws.append hFront hRet
  have hHead :
      item.head =
        item.qualifiers.toRust ++ "fn " ++ item.name.text
          ++ GenericParam.listToRust item.params
          ++ "(" ++ String.intercalate ", "
            (item.args.map FnParam.toRust) ++ ")"
          ++ item.ret.elim "" fun ret =>
            " -> " ++ ret.render := by
    unfold AssocFn.head
    cases item.ret <;> rfl
  rw [hHead]
  simp only [String.append_assoc] at hWhole ⊢
  exact hWhole

theorem assocFn
    (laws : Composes isMark Holds Follows)
    (hMargin : IsQuiet isMark margin)
    (hUnit : IsQuiet isMark unit)
    (item : AssocFn) :
    Follows item.spans (Line.stack margin unit item.lines) := by
  have hHead := laws.fnHead item
  unfold AssocFn.lines AssocFn.spans
  cases hBody : item.body with
  | none =>
      have hLines :=
        laws.bodyless hMargin hUnit hHead item.clauses
      simpa using hLines
  | some body =>
      -- The head, the clauses below it and a body in braces.
      have hOpened :
          ∀ {spans inner},
            Holds spans inner →
              Follows
                (item.qualifiers.spans
                  ++ item.name.alone ::
                    (item.params.flatMap GenericParam.spans
                      ++ item.args.flatMap FnParam.spans
                      ++ item.ret.toList
                      ++ item.clauses.flatMap
                        WhereClause.spans
                      ++ spans))
                ("\n" ++ margin ++ item.head
                  ++ openingGap margin unit item.clauses
                  ++ ("\x7b" ++ inner ++ "\x7d")) := by
        intro spans inner hInner
        have hLine := laws.line hMargin hUnit 0 hHead
        rw [Line.render_zero, ← String.append_assoc] at hLine
        have hWhole :=
          laws.follow
            (laws.follow hLine
              (laws.gap hMargin hUnit item.clauses))
            (laws.curly hInner)
        simpa using hWhole
      dsimp only
      split
      · rename_i hEmpty
        have hInner := laws.span body
        rw [hEmpty] at hInner
        rw [Line.stack_openingLines]
        exact hOpened hInner
      · have hBreak : IsQuiet isMark "\n" :=
          laws.isQuiet (by decide)
        have hInner :=
          laws.weaken
            (laws.followClose
              (laws.line hMargin hUnit 1 (laws.span body))
              (hBreak.append hMargin))
        have hWhole := hOpened hInner
        rw [Line.stack_append, Line.stack_openingLines,
          Line.stack_cons, Line.stack_cons, Line.stack_nil,
          Line.render_zero, String.append_empty]
        simp only [String.append_assoc] at hWhole ⊢
        exact hWhole

/- Items one below the other. -/
theorem items
    (laws : Composes isMark Holds Follows)
    {α : Type}
    {spans : α → List Code}
    {lines : α → List Line}
    (hEach :
      ∀ item,
        Follows (spans item)
          (Line.stack margin unit (lines item)))
    (items : List α) :
    Follows (items.flatMap spans)
      (Line.stack margin unit (items.flatMap lines)) := by
  induction items with
  | nil => exact laws.plain "" (by decide)
  | cons item items ih =>
      rw [List.flatMap_cons, List.flatMap_cons,
        Line.stack_append]
      exact laws.follow (hEach item) ih

------------------------------------------------------------
-- Traits
------------------------------------------------------------

theorem header
    (laws : Composes isMark Holds Follows)
    (decl : TraitDecl) :
    Holds
      (decl.vis.toList ++ [decl.name.alone]
        ++ decl.params.flatMap GenericParam.spans
        ++ decl.requirements.flatMap TraitBound.spans)
      decl.header := by
  have hVis :
      Holds decl.vis.toList
        (decl.vis.elim "" fun vis => vis.render ++ " ") := by
    cases decl.vis with
    | none => exact laws.weaken (laws.plain "" (by decide))
    | some vis =>
        exact laws.close (laws.span vis) (by decide)
  have hUnsafe :
      IsPlain (if decl.isUnsafe then "unsafe " else "") := by
    cases decl.isUnsafe <;> decide
  have hName :=
    laws.after "trait " (by decide)
      (laws.word decl.name)
  have hWhole :=
    laws.append
      (laws.append
        (laws.append (laws.close hVis hUnsafe) hName)
        (laws.params decl.params))
      (laws.traitBounds decl.requirements)
  have hHeader :
      decl.header =
        decl.vis.elim "" (fun vis => vis.render ++ " ")
          ++ (if decl.isUnsafe then "unsafe " else "")
          ++ "trait " ++ decl.name.text
          ++ GenericParam.listToRust decl.params
          ++ afterColon TraitBound.listToRust
            decl.requirements := by
    unfold TraitDecl.header
    cases decl.vis <;> rfl
  rw [hHeader]
  simp only [String.append_assoc] at hWhole ⊢
  exact hWhole

/- What stands in front of the body of a trait. -/
theorem front
    (laws : Composes isMark Holds Follows)
    (decl : TraitDecl)
    {layout : Layout}
    (hIndent : IsQuiet isMark layout.indent) :
    Holds decl.frontSpans (decl.front layout) := by
  have hNone : IsPlain "" := by decide
  have hWhole :=
    laws.append (laws.header decl)
      (laws.gap (laws.isQuiet hNone) hIndent decl.clauses)
  unfold TraitDecl.frontSpans TraitDecl.front
  simpa using hWhole

/- What stands in the body of a trait. -/
theorem inside
    (laws : Composes isMark Holds Follows)
    (decl : TraitDecl)
    {layout : Layout}
    (hIndent : IsQuiet isMark layout.indent) :
    Follows decl.itemSpans (decl.inside layout) := by
  have hItems :
      Follows decl.itemSpans
        (Line.stack layout.indent layout.indent
          decl.itemLines) := by
    unfold TraitDecl.itemSpans TraitDecl.itemLines
    rw [Line.stack_append, Line.stack_append]
    exact laws.follow
      (laws.follow
        (laws.items (laws.assocType hIndent hIndent)
          decl.types)
        (laws.items (laws.assocConst hIndent hIndent)
          decl.consts))
      (laws.items (laws.assocFn hIndent hIndent) decl.fns)
  unfold TraitDecl.inside
  split
  · rename_i hNone
    rwa [hNone, Line.stack_nil] at hItems
  · rename_i hSome
    rw [hSome] at hItems
    exact laws.followClose hItems
      (laws.isQuiet (by decide))

/- A property that composes holds of every printed trait. -/
theorem render
    (laws : Composes isMark Holds Follows)
    (decl : TraitDecl)
    {layout : Layout}
    (hIndent : IsQuiet isMark layout.indent) :
    Holds decl.spans (decl.render layout) := by
  have hEnding : IsPlain layout.ending := by
    unfold Layout.ending
    split <;> decide
  have hWhole :=
    laws.close
      (laws.append (laws.front decl hIndent)
        (laws.curly
          (laws.weaken (laws.inside decl hIndent))))
      hEnding
  rw [decl.render_eq layout]
  simp only [String.append_assoc] at hWhole ⊢
  exact hWhole

end Composes

end TraitMarkup
