import Mathlib.Data.List.Forall2
import Mathlib.Data.List.ModifyLast
import TraitMarkup.Proofs.Insertion
import TraitMarkup.Proofs.TreePrinting

/-
  A layout only says how far lines are indented.

  The lines of a trait are the same under every layout, and so
  are their depths. What ends a line is known: an item without
  a body ends in a semicolon, behind its head or behind the
  whole text of its last where clause. All other where clauses
  end in commas, and what has a body ends in a brace.

  The lines may as well be written as texts that are indented by
  hand, each clause with a comma, and mended afterwards: the last
  text gets a brace, or a semicolon in place of its last
  character. Whatever the clauses and the indent are, the
  character that is replaced is the comma that was put there.

  Key definitions include:
    * `Line.Opens`
    * `Item.Prints`
    * `Item.texts`, `TraitDecl.texts`

  Main declarations:
    * `Item.prints_lines`
    * `Item.Prints.map_render`
    * `TraitDecl.exists_opens`
    * `TraitDecl.map_render_lines`
    * `TraitDecl.render_indentation`
-/

namespace TraitMarkup

------------------------------------------------------------
-- The Lines Of Items
------------------------------------------------------------

namespace Item

/- The item up to its where section. -/
def head : Item → String
  | type item => item.head
  | const item =>
      "const " ++ item.name.text ++ ": " ++ item.type.render
        ++ item.value.elim "" fun value => " = " ++ value.render
  | fn item => item.head

/- The where section of the item. -/
def clauses : Item → List WhereClause
  | type item => item.clauses
  | const _ => []
  | fn item => item.clauses

/- The body of the item. -/
def body? : Item → Option Code
  | type _ => none
  | const _ => none
  | fn item => item.body

end Item

/- The line of a clause at a depth. -/
def WhereClause.line
    (depth : Nat)
    (stop : String)
    (clause : WhereClause) :
    Line :=
  ⟨depth, clause.toRust ++ stop⟩

/-
  The lines put an opening text behind a head: after a blank, or
  on a line of its own below a where section.
-/
inductive Line.Opens
    (depth : Nat)
    (head opening : String) :
    List WhereClause → List Line → Prop
  | bare :
      Opens depth head opening []
        [⟨depth, head ++ " " ++ opening⟩]
  | below
      {clauses : List WhereClause}
      (hSome : clauses ≠ []) :
      Opens depth head opening clauses
        (⟨depth, head⟩ :: ⟨depth, "where"⟩ ::
          clauses.map (WhereClause.line (depth + 1) ",")
            ++ [⟨depth, opening⟩])

/- The lines of an item in a trait. -/
inductive Item.Prints
    (item : Item) :
    List Line → Prop
  | bare
      (hBody : item.body? = none)
      (hClauses : item.clauses = []) :
      Prints item [⟨1, item.head ++ ";"⟩]
  | clauses
      {init : List WhereClause}
      {last : WhereClause}
      (hBody : item.body? = none)
      (hClauses : item.clauses = init ++ [last]) :
      Prints item
        (⟨1, item.head⟩ :: ⟨1, "where"⟩ ::
          init.map (WhereClause.line 2 ",")
            ++ [last.line 2 ";"])
  | blank
      {body : Code}
      {front : List Line}
      (hBody : item.body? = some body)
      (hBlank : body.render = "")
      (hOpens :
        Line.Opens 1 item.head "\x7b\x7d" item.clauses front) :
      Prints item front
  | body
      {body : Code}
      {front : List Line}
      (hBody : item.body? = some body)
      (hText : body.render ≠ "")
      (hOpens : Line.Opens 1 item.head "\x7b" item.clauses front) :
      Prints item (front ++ [⟨2, body.render⟩, ⟨1, "\x7d"⟩])

/- A where section is not empty if there are clauses. -/
theorem WhereClause.lines_of_ne_nil
    (stop : String)
    {clauses : List WhereClause}
    (hSome : clauses ≠ []) :
    lines stop clauses =
      ⟨0, "where"⟩ :: clauseLines stop clauses := by
  cases clauses with
  | nil => contradiction
  | cons clause clauses => rfl

/- What opens on the margin. -/
theorem opens_openingLines
    (head opening : String)
    (clauses : List WhereClause) :
    Line.Opens 0 head opening clauses
      (openingLines head opening clauses) := by
  cases clauses with
  | nil => exact .bare
  | cons clause clauses =>
      have hSome := List.cons_ne_nil clause clauses
      rw [openingLines, WhereClause.lines_of_ne_nil _ hSome,
        WhereClause.clauseLines_comma]
      exact .below hSome

namespace Line.Opens

variable {depth : Nat}
variable {head opening : String}
variable {clauses : List WhereClause}
variable {front : List Line}

/- What opens at a depth opens one level deeper as well. -/
theorem deeper
    (hOpens : Opens depth head opening clauses front) :
    Opens (depth + 1) head opening clauses
      (front.map Line.deeper) := by
  cases hOpens with
  | bare => exact .bare
  | below hSome =>
      simp only [List.map_append, List.map_cons, List.map_map,
        List.map_nil]
      exact .below hSome

theorem ne_nil
    (hOpens : Opens depth head opening clauses front) :
    front ≠ [] := by
  cases hOpens <;> simp

/- No line of an opening is deeper than its clauses. -/
theorem depth_le
    (hOpens : Opens depth head opening clauses front) :
    ∀ line ∈ front, line.depth ≤ depth + 1 := by
  cases hOpens with
  | bare => simp
  | below => simp [WhereClause.line, or_imp, forall_and]

end Line.Opens

namespace Item

/- An item without a body ends in a semicolon. -/
theorem prints_bodyless
    {item : Item}
    (hBody : item.body? = none) :
    item.Prints
      ((bodylessLines item.head item.clauses).map
        Line.deeper) := by
  cases hClauses : item.clauses using List.reverseRecOn with
  | nil => exact .bare hBody hClauses
  | append_singleton init last =>
      have hLines :
          bodylessLines item.head (init ++ [last]) =
            ⟨0, item.head⟩ ::
              WhereClause.lines ";" (init ++ [last]) := by
        cases init <;> rfl
      rw [hLines, WhereClause.lines_of_ne_nil _ (by simp),
        WhereClause.clauseLines_concat]
      simp only [List.map_append, List.map_cons, List.map_map,
        List.map_nil]
      exact .clauses hBody hClauses

/- The lines of an item, one level deep. -/
theorem prints_lines
    (item : Item) :
    item.Prints (item.lines.map Line.deeper) := by
  cases item with
  | type item => exact prints_bodyless rfl
  | const item =>
      have hHead :
          item.lines =
            bodylessLines (Item.const item).head [] := by
        cases hValue : item.value <;>
          simp [AssocConst.lines, bodylessLines, head, hValue,
            String.append_assoc]
      rw [lines, hHead]
      exact prints_bodyless rfl
  | fn item =>
      simp only [lines, AssocFn.lines]
      split
      · rename_i hBody
        exact prints_bodyless hBody
      · rename_i body hBody
        have hOpens := fun opening =>
          (opens_openingLines item.head opening
            item.clauses).deeper
        split
        · rename_i hBlank
          exact .blank hBody hBlank (hOpens _)
        · rename_i hText
          rw [List.map_append]
          exact .body hBody hText (hOpens _)

/- No line of an item is deeper than its clauses and body. -/
theorem Prints.depth_le
    {item : Item}
    {block : List Line}
    (hPrints : item.Prints block) :
    ∀ line ∈ block, line.depth ≤ 2 := by
  cases hPrints with
  | bare => simp
  | clauses => simp [WhereClause.line, or_imp, forall_and]
  | blank _ _ hOpens => exact hOpens.depth_le
  | body _ _ hOpens =>
      exact List.forall_mem_append.mpr
        ⟨hOpens.depth_le, by simp⟩

end Item

------------------------------------------------------------
-- The Lines Of Traits
------------------------------------------------------------

namespace TraitDecl

/- The items of a trait, in the order of print. -/
def items
    (decl : TraitDecl) :
    List Item :=
  decl.types.map .type ++ decl.consts.map .const
    ++ decl.fns.map .fn

/- The lines of the items are those of one after the other. -/
theorem itemLines_eq_flatMap
    (decl : TraitDecl) :
    decl.itemLines = decl.items.flatMap Item.lines := by
  simp only [itemLines, items, List.flatMap_append,
    List.flatMap_map]
  rfl

/- Without items there are no lines of items. -/
theorem itemLines_eq_nil_iff
    {decl : TraitDecl} :
    decl.itemLines = [] ↔ decl.items = [] := by
  rw [itemLines_eq_flatMap, List.flatMap_eq_nil_iff]
  constructor
  · intro hNone
    rw [List.eq_nil_iff_forall_not_mem]
    intro item hItem
    exact item.lines_ne_nil (hNone item hItem)
  · intro hNone
    simp [hNone]

end TraitDecl

------------------------------------------------------------
-- Texts Indented By Hand
------------------------------------------------------------

/- The texts of a where section, each clause with a comma. -/
def WhereClause.texts
    (margin unit : String)
    (clauses : List WhereClause) :
    List String :=
  if clauses.isEmpty then
    []
  else
    (margin ++ "where") ::
      clauses.map fun clause =>
        margin ++ unit ++ clause.toRust ++ ","

/-
  The texts of an item without a body. The last clause gets its
  semicolon when the texts are there.
-/
def bodylessTexts
    (margin unit head : String)
    (clauses : List WhereClause) :
    List String :=
  if clauses.isEmpty then
    [margin ++ head ++ ";"]
  else
    ((margin ++ head) ::
      WhereClause.texts margin unit clauses).modifyLast
        Line.terminated

/-
  The texts of a head that a brace is to be added to. Below a
  where section this is a bare margin.
-/
def headTexts
    (margin unit head : String)
    (clauses : List WhereClause) :
    List String :=
  if clauses.isEmpty then
    [margin ++ head ++ " "]
  else
    (margin ++ head) :: WhereClause.texts margin unit clauses
      ++ [margin]

/- The texts of an item with a body. -/
def bodyTexts
    (margin unit head body : String)
    (clauses : List WhereClause) :
    List String :=
  let front := headTexts margin unit head clauses
  if body = "" then
    front.modifyLast (· ++ "\x7b\x7d")
  else
    front.modifyLast (· ++ "\x7b")
      ++ [margin ++ unit ++ body, margin ++ "\x7d"]

/- The texts of an item. -/
def Item.texts
    (margin unit : String)
    (item : Item) :
    List String :=
  item.body?.elim
    (bodylessTexts margin unit item.head item.clauses)
    fun body =>
      bodyTexts margin unit item.head body.render item.clauses

namespace TraitDecl

/- The texts of a trait up to its items. -/
def frontTexts
    (unit opening : String)
    (decl : TraitDecl) :
    List String :=
  let front :=
    decl.header :: WhereClause.texts "" unit decl.clauses
  if decl.clauses.isEmpty then
    front.modifyLast (· ++ " " ++ opening)
  else
    front ++ [opening]

/- The texts of a trait. -/
def texts
    (unit : String)
    (decl : TraitDecl) :
    List String :=
  let inside := decl.items.flatMap (Item.texts unit unit)
  if inside.isEmpty then
    decl.frontTexts unit "\x7b\x7d"
  else
    decl.frontTexts unit "\x7b" ++ inside ++ ["\x7d"]

end TraitDecl

/-
  What the last semicolon replaces is the comma that was added,
  so the clause is there in full.
-/
theorem bodylessTexts_concat
    (margin unit head : String)
    (init : List WhereClause)
    (last : WhereClause) :
    bodylessTexts margin unit head (init ++ [last]) =
      (margin ++ head) :: (margin ++ "where") ::
        (init.map fun clause =>
          margin ++ unit ++ clause.toRust ++ ",")
        ++ [margin ++ unit ++ last.toRust ++ ";"] := by
  have hSome : ¬ (init ++ [last]).isEmpty := by
    simp
  rw [bodylessTexts, if_neg hSome, WhereClause.texts,
    if_neg hSome, List.map_append, List.map_singleton,
    ← List.cons_append, ← List.cons_append,
    List.modifyLast_concat, Line.terminated_comma]

/- The indentation of a line at a depth. -/
def Line.margin
    (unit : String)
    (depth : Nat) :
    String :=
  String.join (List.replicate depth unit)

namespace Line

theorem render_eq_margin
    (unit : String)
    (depth : Nat)
    (text : String) :
    render "" unit ⟨depth, text⟩ = margin unit depth ++ text := by
  rw [render, String.empty_append, margin]

theorem margin_zero
    (unit : String) :
    margin unit 0 = "" :=
  rfl

theorem margin_succ
    (unit : String)
    (depth : Nat) :
    margin unit (depth + 1) = margin unit depth ++ unit := by
  rw [margin, margin, List.replicate_succ', String.join_append]
  simp

/- A clause is indented by one more unit than its section. -/
theorem render_line
    (unit : String)
    (depth : Nat)
    (stop : String)
    (clause : WhereClause) :
    (clause.line (depth + 1) stop).render "" unit =
      margin unit depth ++ unit ++ clause.toRust ++ stop := by
  rw [WhereClause.line, render_eq_margin, margin_succ,
    ← String.append_assoc]

/- What opens is a head whose last text gets a brace. -/
theorem Opens.map_render
    {depth : Nat}
    {head opening : String}
    {clauses : List WhereClause}
    {front : List Line}
    (hOpens : Opens depth head opening clauses front)
    (unit : String) :
    front.map (render "" unit) =
      (headTexts (margin unit depth) unit head
        clauses).modifyLast (· ++ opening) := by
  cases hOpens with
  | bare =>
      rw [List.map_singleton, render_eq_margin,
        ← String.append_assoc, ← String.append_assoc]
      rfl
  | below hSome =>
      have hEmpty : ¬ clauses.isEmpty := by
        simpa using hSome
      rw [headTexts, if_neg hEmpty, List.modifyLast_concat,
        WhereClause.texts, if_neg hEmpty]
      simp [render_eq_margin, render_line]

end Line

/- An item is printed as the texts that are mended. -/
theorem Item.Prints.map_render
    {item : Item}
    {block : List Line}
    (hPrints : item.Prints block)
    (unit : String) :
    block.map (Line.render "" unit) = item.texts unit unit := by
  have hMargin : Line.margin unit 1 = unit := by
    rw [Line.margin_succ, Line.margin_zero,
      String.empty_append]
  cases hPrints with
  | bare hBody hClauses =>
      rw [texts, hBody, hClauses, List.map_singleton,
        Line.render_eq_margin, hMargin, ← String.append_assoc]
      rfl
  | @clauses init last hBody hClauses =>
      rw [texts, hBody, hClauses, Option.elim_none,
        bodylessTexts_concat]
      simp [Line.render_eq_margin, Line.render_line, hMargin]
  | blank hBody hBlank hOpens =>
      rw [texts, hBody, Option.elim_some, bodyTexts,
        if_pos hBlank, hOpens.map_render, hMargin]
  | body hBody hText hOpens =>
      rw [texts, hBody, Option.elim_some, bodyTexts,
        if_neg hText, List.map_append, hOpens.map_render,
        hMargin]
      simp [Line.render_eq_margin, Line.margin_succ,
        Line.margin_zero]

namespace TraitDecl

/- The items of a trait are printed as their texts. -/
theorem map_render_itemLines
    (decl : TraitDecl)
    (unit : String) :
    (decl.itemLines.map Line.deeper).map (Line.render "" unit) =
      decl.items.flatMap (Item.texts unit unit) := by
  rw [itemLines_eq_flatMap, List.map_flatMap, List.map_flatMap]
  congr 1
  funext item
  exact item.prints_lines.map_render unit

/- The front of a trait is a head whose last text gets a brace. -/
theorem frontTexts_eq
    (unit opening : String)
    (decl : TraitDecl) :
    decl.frontTexts unit opening =
      (headTexts "" unit decl.header decl.clauses).modifyLast
        (· ++ opening) := by
  by_cases hEmpty : decl.clauses.isEmpty
  · rw [frontTexts, if_pos hEmpty, headTexts, if_pos hEmpty,
      WhereClause.texts, if_pos hEmpty, String.empty_append]
    rfl
  · rw [frontTexts, if_neg hEmpty, headTexts, if_neg hEmpty,
      List.modifyLast_concat, String.empty_append,
      String.empty_append]

/-
  The lines of a trait: what opens it, its items, and a brace
  below them if there are any.
-/
theorem exists_opens
    (decl : TraitDecl) :
    ∃ front,
      Line.Opens 0 decl.header
          (if decl.items = [] then "\x7b\x7d" else "\x7b")
          decl.clauses front ∧
        decl.lines =
          front ++ decl.itemLines.map Line.deeper
            ++ if decl.items = [] then [] else [⟨0, "\x7d"⟩] := by
  refine ⟨_, opens_openingLines _ _ _, ?_⟩
  rw [lines]
  split
  · rename_i hItems
    simp [hItems, itemLines_eq_nil_iff.mp hItems]
  · rename_i hItems
    have hSome : decl.items ≠ [] := by
      rw [ne_eq, ← itemLines_eq_nil_iff, hItems]
      exact List.cons_ne_nil _ _
    rw [if_neg hSome, if_neg hSome, hItems]

/- A trait is printed as the texts that are mended. -/
theorem map_render_lines
    (decl : TraitDecl)
    (unit : String) :
    decl.lines.map (Line.render "" unit) = decl.texts unit := by
  rcases decl.exists_opens with ⟨front, hOpens, hLines⟩
  rw [hLines, List.map_append, List.map_append,
    hOpens.map_render, Line.margin_zero, ← frontTexts_eq,
    map_render_itemLines, texts]
  by_cases hItems : decl.items = []
  · simp [hItems]
  · have hInside :
        decl.items.flatMap (Item.texts unit unit) ≠ [] := by
      rw [← map_render_itemLines]
      simpa [itemLines_eq_nil_iff] using hItems
    simp [hItems, hInside, Line.render_zero]

/-
  A layout only says how far lines are indented and whether a
  newline comes last. The lines have three depths. They open the
  trait, print its items one after the other, and close it. The
  text is also what comes of texts that are indented by hand and
  mended.
-/
theorem render_indentation
    (decl : TraitDecl) :
    decl.lines ≠ [] ∧
      (∀ line ∈ decl.lines, line.depth ≤ 2) ∧
      (∀ layout : Layout,
        decl.render layout =
            String.intercalate "\n"
                (decl.lines.map fun line =>
                  String.join
                      (List.replicate line.depth layout.indent)
                    ++ line.text)
              ++ (if layout.trailingNewline then "\n" else "") ∧
          decl.render layout =
            layout.join (decl.texts layout.indent)) ∧
      ∃ front blocks,
        Line.Opens 0 decl.header
            (if decl.items = [] then "\x7b\x7d" else "\x7b")
            decl.clauses front ∧
          List.Forall₂ Item.Prints decl.items blocks ∧
          decl.lines =
            front ++ blocks.flatten
              ++ if decl.items = [] then [] else [⟨0, "\x7d"⟩] := by
  rcases decl.exists_opens with ⟨front, hOpens, hLines⟩
  let blocks := decl.items.map fun item =>
    item.lines.map Line.deeper
  have hBlocks : List.Forall₂ Item.Prints decl.items blocks := by
    rw [List.forall₂_map_right_iff, List.forall₂_same]
    exact fun item _ => item.prints_lines
  have hFlatten :
      decl.itemLines.map Line.deeper = blocks.flatten := by
    rw [itemLines_eq_flatMap, List.map_flatMap,
      List.flatMap_def]
  have hInside :
      ∀ line ∈ decl.itemLines.map Line.deeper,
        line.depth ≤ 2 := by
    rw [itemLines_eq_flatMap, List.map_flatMap]
    intro line hLine
    rcases List.mem_flatMap.mp hLine with ⟨item, _, hMem⟩
    exact item.prints_lines.depth_le line hMem
  refine ⟨?_, ?_, fun layout => ⟨?_, ?_⟩, front, blocks, hOpens,
    hBlocks, ?_⟩
  · simp [hLines, hOpens.ne_nil]
  · rw [hLines]
    refine List.forall_mem_append.mpr
      ⟨List.forall_mem_append.mpr ⟨?_, hInside⟩, ?_⟩
    · exact fun line hLine =>
        Nat.le_succ_of_le (hOpens.depth_le line hLine)
    · split <;> simp
  · have hLine :
        Line.render "" layout.indent = fun line =>
          Line.margin layout.indent line.depth ++ line.text :=
      funext fun line => Line.render_eq_margin _ _ _
    rw [render, Layout.render_eq, hLine]
    rfl
  · rw [render, Layout.render_eq, map_render_lines]
    rfl
  · rw [hLines, hFlatten]

/-
  A trait whose clauses end in commas of their own. Nothing of
  them is lost, with blanks as well as with commas for an indent.
-/
theorem render_indentation_commas :
    let word (text : String) : Token :=
      ⟨.ident, text, false, {}⟩
    let comma : Token := ⟨.punct, ",", false, {}⟩
    let clause (text : String) : WhereClause :=
      .type
        { type := [word text]
          bounds := [.trait { path := [word "B", comma] }] }
    let decl : TraitDecl :=
      { name := word "T"
        clauses := [clause "Self"]
        types :=
          [{ name := word "A"
             clauses := [clause "X", clause "Y"] }]
        fns :=
          [{ name := word "f"
             clauses := [clause "Z"]
             body := some [word "x", comma] }] }
    let line : Line := ⟨2, "Y: B,;"⟩
    (line ∈ decl.lines ∧ line.depth ≤ 2) ∧
      decl.render ⟨",", false⟩ =
        "trait T\nwhere\n,Self: B,,\n\x7b\n"
          ++ ",type A\n,where\n,,X: B,,\n,,Y: B,;\n"
          ++ ",fn f()\n,where\n,,Z: B,,\n,\x7b\n"
          ++ ",,x,\n,\x7d\n\x7d" ∧
      decl.render ⟨"  ", true⟩ =
        Layout.join ⟨"  ", true⟩ (decl.texts "  ") := by
  intro word comma clause decl line
  rcases render_indentation decl with ⟨_, hDepth, hRender, _⟩
  have hLine : line ∈ decl.lines := by
    decide +kernel
  refine ⟨⟨hLine, hDepth line hLine⟩, ?_, (hRender _).2⟩
  rw [(hRender _).1]
  decide +kernel

end TraitDecl

end TraitMarkup
