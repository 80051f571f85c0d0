import TraitMarkup.Proofs.Composition
import TraitMarkup.Proofs.Rearrangement

/-
  One more item in a trait.

  An item section may be put between any two parts of a trait.
  What it is read as does not depend on the parts around it, and
  it does not change what they are read as. The declaration gets
  one more item in the list of its kind, and its text gets the
  lines of that item, in one place.

  Key definitions include:
    * `Item`
    * `Item.heads`
    * `TraitDecl.insert`
    * `TraitDecl.linesBefore`, `TraitDecl.linesAfter`
    * `Layout.join`

  Main declarations:
    * `Section.SetsOnce.insert`
    * `Section.Forms.insert`
    * `Item.length_values`
    * `TraitDecl.exists_parts`
    * `TraitDecl.ofTokens_insert`
    * `TraitDecl.render_insert`
    * `TraitDecl.insertion`
-/

namespace TraitMarkup

------------------------------------------------------------
-- Items
------------------------------------------------------------

/- An item of a trait, of one of the three kinds. -/
inductive Item where
  | type (item : AssocType)
  | const (item : AssocConst)
  | fn (item : AssocFn)
deriving DecidableEq, Repr

namespace Item

/- The tag of the sections of the item's kind. -/
def tag : Item → Tag
  | type _ => .assocType
  | const _ => .assocConst
  | fn _ => .assocFn

/- The section that the item is read by. -/
def group : Item → Section
  | type _ => .assocType
  | const _ => .assocConst
  | fn _ => .assocFn

/- The field of a trait that the item is kept in. -/
def field : Item → Field
  | type _ => .types
  | const _ => .consts
  | fn _ => .fns

/- The item as it is delivered by its section. -/
def fragment : Item → Fragment
  | type item => .assocType item
  | const item => .assocConst item
  | fn item => .assocFn item

/- The item as it is printed. -/
def lines : Item → List Line
  | type item => item.lines
  | const item => item.lines
  | fn item => item.lines

/- What a section with the item adds to a trait. -/
def entry
    (item : Item) :
    Entry :=
  .child item.tag item.fragment

/- The part of a trait is a section of the item's kind. -/
def heads
    (item : Item)
    (part : List Token) :
    Bool :=
  part.head?.any (·.opens item.tag.text)

end Item

namespace TraitDecl

/- How many items of a kind there are. -/
def count
    (decl : TraitDecl) :
    Item → Nat
  | .type _ => decl.types.length
  | .const _ => decl.consts.length
  | .fn _ => decl.fns.length

/- The trait with one more item, after `n` others of its kind. -/
def insert
    (decl : TraitDecl)
    (n : Nat) :
    Item → TraitDecl
  | .type item =>
      { decl with types := decl.types.insertIdx n item }
  | .const item =>
      { decl with consts := decl.consts.insertIdx n item }
  | .fn item =>
      { decl with fns := decl.fns.insertIdx n item }

end TraitDecl

/- A member that is inserted splits the list at its index. -/
theorem insertIdx_eq_take_append
    {α : Type}
    {items : List α}
    {n : Nat}
    (hLength : n ≤ items.length)
    (item : α) :
    items.insertIdx n item =
      items.take n ++ item :: items.drop n := by
  induction n generalizing items with
  | zero => rfl
  | succ n ih =>
      cases items with
      | nil => cases hLength
      | cons first rest =>
          rw [List.insertIdx_succ_cons,
            ih (Nat.le_of_succ_le_succ hLength),
            List.take_succ_cons, List.drop_succ_cons,
            List.cons_append]

------------------------------------------------------------
-- One More Entry
------------------------------------------------------------

namespace Draft

variable {group : Section}
variable {field : Field}
variable {left right : List Entry}
variable {entry : Entry}

/- An entry leaves the fields alone that it does not fill. -/
theorem values_insert_of_none
    (hEntry : entry.value? group field = none) :
    values ⟨left ++ entry :: right⟩ group field =
      values ⟨left ++ right⟩ group field := by
  simp only [values, List.filterMap_append,
    List.filterMap_cons_none hEntry]

/-
  In a field that lists what it is given, the value of an entry
  comes after the values that are given before it.
-/
theorem HasAll.insert
    {α : Type}
    {form : α → Fragment}
    {items : List α}
    {item : α}
    (hAll : HasAll ⟨left ++ right⟩ group field form items)
    (hEntry : entry.value? group field = some (form item)) :
    (values ⟨left⟩ group field).length ≤ items.length ∧
      HasAll ⟨left ++ entry :: right⟩ group field form
        (items.insertIdx (values ⟨left⟩ group field).length
          item) := by
  rw [HasAll, values, List.filterMap_append] at hAll
  rcases List.map_eq_append_iff.mp hAll.symm with
    ⟨before, after, rfl, hBefore, hAfter⟩
  have hLength :
      (values ⟨left⟩ group field).length = before.length := by
    rw [values, ← hBefore, List.length_map]
  have hLe : before.length ≤ (before ++ after).length := by
    simp
  rw [hLength]
  refine ⟨hLe, ?_⟩
  rw [HasAll, values, List.filterMap_append,
    List.filterMap_cons_some hEntry, ← hBefore, ← hAfter,
    insertIdx_eq_take_append hLe, List.take_left,
    List.drop_left, List.map_append, List.map_cons]

end Draft

namespace Item

variable {item : Item}
variable {left right : List Entry}

/- The section of an item has its place in a trait. -/
theorem child?_tag
    (item : Item) :
    Section.trait.child? item.tag =
      some (.many (.ofSection item.group) item.field) := by
  cases item <;> rfl

/- No other tag fills the field of an item. -/
theorem tag_of_field
    {tag : Tag}
    {child : Child}
    (hChild : Section.trait.child? tag = some child)
    (hField : child.field = item.field) :
    tag = item.tag := by
  cases item <;> cases tag <;> cases hChild <;>
    first
    | rfl
    | cases hField

/- An item goes into the field of its kind. -/
theorem value?_entry
    (item : Item) :
    item.entry.value? .trait item.field =
      some item.fragment := by
  cases item <;> rfl

/- An item goes into no other field. -/
theorem value?_entry_of_ne
    {field : Field}
    (hField : item.field ≠ field) :
    item.entry.value? .trait field = none := by
  simp [entry, Entry.value?, child?_tag, Child.many, hField]

/- The fields of other kinds are as before. -/
theorem values_insert_of_ne
    {field : Field}
    (hField : item.field ≠ field) :
    Draft.values ⟨left ++ item.entry :: right⟩ .trait field =
      Draft.values ⟨left ++ right⟩ .trait field :=
  Draft.values_insert_of_none (value?_entry_of_ne hField)

theorem hasAll_insert_of_ne
    {field : Field}
    {α : Type}
    {form : α → Fragment}
    {items : List α}
    (hField : item.field ≠ field)
    (hAll :
      Draft.HasAll ⟨left ++ right⟩ .trait field form items) :
    Draft.HasAll ⟨left ++ item.entry :: right⟩ .trait field form
      items :=
  (values_insert_of_ne hField).trans hAll

end Item

namespace Section

variable {left right : List Entry}

/- One more item sets nothing twice: its field is for several. -/
theorem SetsOnce.insert
    (hOnce : trait.SetsOnce ⟨left ++ right⟩)
    (item : Item) :
    trait.SetsOnce ⟨left ++ item.entry :: right⟩ := by
  constructor
  · intro tag child hChild hSingle
    have hField : item.field ≠ child.field := by
      intro hSame
      have hTag := Item.tag_of_field hChild hSame.symm
      rw [hTag, item.child?_tag] at hChild
      cases hChild
      cases hSingle
    rw [Item.values_insert_of_ne hField]
    exact hOnce.1 tag child hChild hSingle
  · intro tag
    have hCount := hOnce.2 tag
    rw [List.count_append] at hCount ⊢
    rw [List.count_cons_of_ne (by simp [Item.entry])]
    exact hCount

/- The items of a trait are what its fields for items hold. -/
theorem Forms.hasAll
    {draft : Draft}
    {decl : TraitDecl}
    (hForms : Section.trait.Forms draft (.trait decl)) :
    draft.HasAll .trait .types .assocType decl.types ∧
      draft.HasAll .trait .consts .assocConst decl.consts ∧
      draft.HasAll .trait .fns .assocFn decl.fns := by
  cases hForms with
  | trait _ _ _ _ _ _ _ _ hTypes hConsts hFns =>
      exact ⟨hTypes, hConsts, hFns⟩

/- A trait with other items, and all else as it was. -/
theorem Forms.withItems
    {old new : Draft}
    {decl : TraitDecl}
    {types : List AssocType}
    {consts : List AssocConst}
    {fns : List AssocFn}
    (hForms : Section.trait.Forms old (.trait decl))
    (hKeep :
      ∀ field ∈ [Field.name, .vis, .bounds, .clauses],
        new.values .trait field = old.values .trait field)
    (hMark :
      Entry.mark .unsafety ∈ new.entries ↔
        Entry.mark .unsafety ∈ old.entries)
    (hTypes : new.HasAll .trait .types .assocType types)
    (hConsts : new.HasAll .trait .consts .assocConst consts)
    (hFns : new.HasAll .trait .fns .assocFn fns) :
    Section.trait.Forms new
      (.trait
        { decl with
          types := types
          consts := consts
          fns := fns }) := by
  cases hForms with
  | trait hName hVis hUnsafe hGenerics hParams hRequirements
      hClauses hWhere =>
      refine .trait ?_ ?_ ?_ ?_ hParams hRequirements ?_ hWhere
        hTypes hConsts hFns
      · exact (hKeep .name (by decide)).trans hName
      · exact (hKeep .vis (by decide)).trans hVis
      · exact hUnsafe.trans hMark.symm
      · exact (hKeep .bounds (by decide)).trans hGenerics
      · exact (hKeep .clauses (by decide)).trans hClauses

/- The trait that is formed with one more item. -/
theorem Forms.insert
    {decl : TraitDecl}
    (hForms : Section.trait.Forms ⟨left ++ right⟩ (.trait decl))
    (item : Item) :
    let n := (Draft.values ⟨left⟩ .trait item.field).length
    n ≤ decl.count item ∧
      Section.trait.Forms ⟨left ++ item.entry :: right⟩
        (.trait (decl.insert n item)) := by
  intro n
  have hMark :
      Entry.mark .unsafety ∈ left ++ item.entry :: right ↔
        Entry.mark .unsafety ∈ left ++ right := by
    simp [Item.entry]
  have hKeep :
      ∀ field ∈ [Field.name, .vis, .bounds, .clauses],
        Draft.values ⟨left ++ item.entry :: right⟩ .trait
            field =
          Draft.values ⟨left ++ right⟩ .trait field := by
    intro field hField
    apply Item.values_insert_of_ne
    rintro rfl
    cases item <;> simp [Item.field] at hField
  rcases hForms.hasAll with ⟨hTypes, hConsts, hFns⟩
  cases item with
  | type item =>
      rcases hTypes.insert (Item.value?_entry (.type item)) with
        ⟨hLe, hMore⟩
      refine ⟨hLe, hForms.withItems hKeep hMark hMore ?_ ?_⟩
      · exact Item.hasAll_insert_of_ne (by nofun) hConsts
      · exact Item.hasAll_insert_of_ne (by nofun) hFns
  | const item =>
      rcases hConsts.insert (Item.value?_entry (.const item))
        with ⟨hLe, hMore⟩
      refine ⟨hLe, hForms.withItems hKeep hMark ?_ hMore ?_⟩
      · exact Item.hasAll_insert_of_ne (by nofun) hTypes
      · exact Item.hasAll_insert_of_ne (by nofun) hFns
  | fn item =>
      rcases hFns.insert (Item.value?_entry (.fn item)) with
        ⟨hLe, hMore⟩
      refine ⟨hLe, hForms.withItems hKeep hMark ?_ ?_ hMore⟩
      · exact Item.hasAll_insert_of_ne (by nofun) hTypes
      · exact Item.hasAll_insert_of_ne (by nofun) hConsts

end Section

------------------------------------------------------------
-- One More Part
------------------------------------------------------------

namespace Item

/- The part of an item adds the item to a trait. -/
theorem entryOf?_part
    {item : Item}
    {opener : Token}
    {inside : List Token}
    (hOpens : opener.opens item.tag.text)
    (hRun :
      Production.run item.group.id inside =
        .ok (item.fragment, [])) :
    Section.trait.entryOf? (opener :: inside) =
      some item.entry := by
  have hRead :=
    Section.read_eq_opening_iff.mpr ⟨hOpens, item.child?_tag⟩
  have hInside :
      Production.run (Production.ofSection item.group).id inside =
        .ok (item.fragment, []) := hRun
  simp only [Section.entryOf?, hRead, Child.many, hInside, entry]

/- The sections of the three kinds deliver items. -/
theorem exists_fragment_eq
    {group : Section}
    (hGroup :
      group ∈ [Section.assocType, .assocConst, .assocFn])
    {inside : List Token}
    {fragment : Fragment}
    (hRun :
      Production.run group.id inside = .ok (fragment, [])) :
    ∃ item : Item,
      item.group = group ∧ item.fragment = fragment := by
  have hId : group.id = (Production.ofSection group).id := rfl
  rw [hId, Production.run_eq_ok_iff] at hRun
  rcases hRun with ⟨_, _, hDerives⟩
  rcases Production.exists_fits_of_derives hDerives with
    ⟨_, _, _, _, _, hForms, _⟩
  cases hForms with
  | @assocType _ item => exact ⟨.type item, rfl, rfl⟩
  | @assocConst _ item => exact ⟨.const item, rfl, rfl⟩
  | @assocFn _ item => exact ⟨.fn item, rfl, rfl⟩
  | _ => simp at hGroup

/- A part fills the field of a kind if its tag is of the kind. -/
theorem isSome_value?_iff
    (item : Item)
    {part : List Token}
    {found : Entry}
    (hFound : Section.trait.entryOf? part = some found) :
    (found.value? .trait item.field).isSome ↔
      item.heads part := by
  rcases Section.entryOf?_eq_some_iff.mp hFound with
    ⟨piece, hFits, rfl, rfl⟩
  cases hFits with
  | @child opener inside tag fragment child hOpens hChild _ =>
      have hRead :=
        Section.read_eq_opening_iff.mpr ⟨hOpens, hChild⟩
      have hValue :
          (Entry.child tag fragment).value? .trait item.field =
            if child.field = item.field then
              some (child.adapt fragment)
            else
              none := by
        simp only [Entry.value?, hChild]
      have hHeads :
          item.heads (opener :: inside) =
            opener.opens item.tag.text := rfl
      rw [Piece.entry, Piece.tokens, hValue, hHeads]
      constructor
      · intro hSome
        have hField : child.field = item.field := by
          by_contra hOther
          rw [if_neg hOther] at hSome
          cases hSome
        rw [← tag_of_field hChild hField]
        exact hOpens
      · intro hItem
        have hSame :=
          Section.read_eq_opening_iff.mpr
            ⟨hItem, item.child?_tag⟩
        rw [hRead] at hSame
        cases hSame
        simp [Child.many]
  | @mark token tag hMarks hMark =>
      have hRead :=
        Section.read_eq_mark_iff.mpr ⟨hMarks, hMark⟩
      have hHeads :
          item.heads [token] = token.opens item.tag.text := rfl
      rw [Piece.entry, Piece.tokens, hHeads]
      constructor
      · intro hSome
        cases hSome
      · intro hItem
        have hSame :=
          Section.read_eq_opening_iff.mpr
            ⟨hItem, item.child?_tag⟩
        rw [hRead] at hSame
        cases hSame

/- A kind has as many values as there are sections of it. -/
theorem length_values
    (item : Item)
    {parts : List (List Token)}
    (hParts :
      ∀ part ∈ parts, (Section.trait.entryOf? part).isSome) :
    (Draft.values ⟨parts.filterMap Section.trait.entryOf?⟩
        .trait item.field).length =
      parts.countP item.heads := by
  induction parts with
  | nil => rfl
  | cons part parts ih =>
      rcases List.forall_mem_cons.mp hParts with
        ⟨hPart, hRest⟩
      rcases Option.isSome_iff_exists.mp hPart with
        ⟨found, hFound⟩
      have hSome := item.isSome_value?_iff hFound
      have hTail := ih hRest
      rw [Draft.values] at hTail ⊢
      rw [List.filterMap_cons_some hFound, List.countP_cons,
        ← hTail]
      cases hValue : found.value? .trait item.field with
      | none =>
          rw [hValue] at hSome
          rw [List.filterMap_cons_none hValue,
            if_neg (fun hHeads => by cases hSome.mpr hHeads)]
          rfl
      | some value =>
          rw [hValue] at hSome
          rw [List.filterMap_cons_some hValue,
            if_pos (hSome.mp rfl), List.length_cons]

end Item

namespace TraitDecl

/- What is accepted is made of parts, between two tags. -/
theorem exists_parts
    {tokens : List Token}
    {decl : TraitDecl}
    (hTokens : ofTokens tokens = .ok decl) :
    ∃ (opener close : Token) (parts : List (List Token)),
      tokens = opener :: (parts.flatten ++ [close]) ∧
        opener.opens "trait" ∧
        close.closes "trait" ∧
        ∀ part ∈ parts,
          (Section.trait.entryOf? part).isSome := by
  rcases derivedFrom_of_ofTokens hTokens with
    ⟨opener, inside, rfl, hOpens, hDerives⟩
  rcases Production.exists_fits_of_derives hDerives with
    ⟨pieces, close, rfl, hFits, _, _, hClose⟩
  refine ⟨opener, close, pieces.map Piece.tokens, ?_, hOpens,
    hClose, ?_⟩
  · rw [← List.flatMap_def]
  · intro part hPart
    rcases List.mem_map.mp hPart with ⟨piece, hPiece, rfl⟩
    rw [Section.entryOf?_eq_some_iff.mpr
      ⟨piece, hFits piece hPiece, rfl, rfl⟩]
    rfl

/- One more item section between the parts of a trait. -/
theorem ofTokens_insert
    {opener close : Token}
    {left right : List (List Token)}
    {decl : TraitDecl}
    (hOpens : opener.opens "trait")
    (hClose : close.closes "trait")
    (hParts :
      ∀ part ∈ left ++ right,
        (Section.trait.entryOf? part).isSome)
    (hTokens :
      ofTokens (opener :: ((left ++ right).flatten ++ [close])) =
        .ok decl)
    {item : Item}
    {part : List Token}
    (hPart : Section.trait.entryOf? part = some item.entry) :
    left.countP item.heads ≤ decl.count item ∧
      ofTokens
          (opener ::
            ((left ++ part :: right).flatten ++ [close])) =
        .ok (decl.insert (left.countP item.heads) item) := by
  rcases Section.exists_pieces hParts with
    ⟨pieces, hFits, hFlat, hEntries⟩
  have hAll :
      ∀ other ∈ left ++ part :: right,
        (Section.trait.entryOf? other).isSome := by
    intro other hOther
    rcases List.mem_append.mp hOther with hLeft | hRight
    · exact hParts other (List.mem_append_left _ hLeft)
    · rcases List.mem_cons.mp hRight with rfl | hRight
      · rw [hPart]
        rfl
      · exact hParts other (List.mem_append_right _ hRight)
  rcases Section.exists_pieces hAll with
    ⟨more, hMore, hMoreFlat, hMoreEntries⟩
  -- Both drafts are the entries of their parts, so the new one
  -- is the old one with an entry in between.
  have hOld :
      Draft.ofPieces pieces =
        ⟨left.filterMap Section.trait.entryOf?
          ++ right.filterMap Section.trait.entryOf?⟩ := by
    rw [← List.filterMap_append, ← hEntries]
  have hNew :
      Draft.ofPieces more =
        ⟨left.filterMap Section.trait.entryOf? ++ item.entry
          :: right.filterMap Section.trait.entryOf?⟩ := by
    rw [← List.filterMap_cons_some hPart,
      ← List.filterMap_append, ← hMoreEntries]
  rw [ofTokens_cons_eq_ok_iff hOpens, ← hFlat,
    Section.run_pieces_eq_ok_iff hFits hClose, hOld] at hTokens
  rw [ofTokens_cons_eq_ok_iff hOpens, ← hMoreFlat,
    Section.run_pieces_eq_ok_iff hMore hClose, hNew]
  have hLength :=
    item.length_values
      (fun part hPart =>
        hParts part (List.mem_append_left right hPart))
  rcases hTokens.2.insert item with ⟨hLe, hForms⟩
  rw [hLength] at hLe hForms
  exact ⟨hLe, hTokens.1.insert item, hForms⟩

end TraitDecl

------------------------------------------------------------
-- One More Group Of Lines
------------------------------------------------------------

/- Printed lines, with newlines between them and the end. -/
def Layout.join
    (layout : Layout)
    (texts : List String) :
    String :=
  String.intercalate "\n" texts ++ layout.ending

theorem bodylessLines_ne_nil
    (head : String)
    (clauses : List WhereClause) :
    bodylessLines head clauses ≠ [] := by
  cases clauses <;> simp [bodylessLines]

theorem openingLines_ne_nil
    (head opening : String)
    (clauses : List WhereClause) :
    openingLines head opening clauses ≠ [] := by
  cases clauses <;> simp [openingLines]

/- Every item takes a line at least. -/
theorem Item.lines_ne_nil
    (item : Item) :
    item.lines ≠ [] := by
  cases item with
  | type item => exact bodylessLines_ne_nil _ _
  | const item =>
      simp only [lines, AssocConst.lines]
      split <;> simp
  | fn item =>
      simp only [lines, AssocFn.lines]
      split
      · exact bodylessLines_ne_nil _ _
      · split
        · exact openingLines_ne_nil _ _ _
        · simp

namespace TraitDecl

/- The lines of the items before an item of a kind. -/
def itemsBefore
    (decl : TraitDecl)
    (n : Nat) :
    Item → List Line
  | .type _ => (decl.types.take n).flatMap AssocType.lines
  | .const _ =>
      decl.types.flatMap AssocType.lines
        ++ (decl.consts.take n).flatMap AssocConst.lines
  | .fn _ =>
      decl.types.flatMap AssocType.lines
        ++ decl.consts.flatMap AssocConst.lines
        ++ (decl.fns.take n).flatMap AssocFn.lines

/- The lines of the items after an item of a kind. -/
def itemsAfter
    (decl : TraitDecl)
    (n : Nat) :
    Item → List Line
  | .type _ =>
      (decl.types.drop n).flatMap AssocType.lines
        ++ decl.consts.flatMap AssocConst.lines
        ++ decl.fns.flatMap AssocFn.lines
  | .const _ =>
      (decl.consts.drop n).flatMap AssocConst.lines
        ++ decl.fns.flatMap AssocFn.lines
  | .fn _ => (decl.fns.drop n).flatMap AssocFn.lines

/-
  The printed lines before an item of a kind: the head of the
  trait, and the items before it, one level deep.
-/
def linesBefore
    (decl : TraitDecl)
    (layout : Layout)
    (n : Nat)
    (item : Item) :
    List String :=
  (openingLines decl.header "\x7b" decl.clauses).map
      (Line.render "" layout.indent)
    ++ (decl.itemsBefore n item).map
      (Line.render layout.indent layout.indent)

/- The printed lines after an item of a kind. -/
def linesAfter
    (decl : TraitDecl)
    (layout : Layout)
    (n : Nat)
    (item : Item) :
    List String :=
  (decl.itemsAfter n item).map
      (Line.render layout.indent layout.indent)
    ++ ["\x7d"]

/- The items are printed before and after a place of a kind. -/
theorem itemLines_eq
    (decl : TraitDecl)
    (n : Nat)
    (item : Item) :
    decl.itemLines =
      decl.itemsBefore n item ++ decl.itemsAfter n item := by
  cases item with
  | type item =>
      simp only [itemLines, itemsBefore, itemsAfter,
        ← List.append_assoc, ← List.flatMap_append,
        List.take_append_drop]
  | const item =>
      simp only [itemLines, itemsBefore, itemsAfter,
        List.append_assoc]
      rw [← List.append_assoc (List.flatMap _ _)
        (List.flatMap _ (List.drop _ _)), ← List.flatMap_append,
        List.take_append_drop]
  | fn item =>
      simp only [itemLines, itemsBefore, itemsAfter,
        List.append_assoc, ← List.flatMap_append,
        List.take_append_drop]

/- One more item is printed in its place among the others. -/
theorem itemLines_insert
    {decl : TraitDecl}
    {n : Nat}
    {item : Item}
    (hLe : n ≤ decl.count item) :
    (decl.insert n item).itemLines =
      decl.itemsBefore n item ++ item.lines
        ++ decl.itemsAfter n item := by
  cases item <;>
    simp [insert, itemLines, itemsBefore, itemsAfter,
      Item.lines, insertIdx_eq_take_append hLe]

/- A trait with items, line by line. -/
theorem render_of_itemLines
    {decl : TraitDecl}
    (layout : Layout)
    (hSome : decl.itemLines ≠ []) :
    decl.render layout =
      layout.join
        ((openingLines decl.header "\x7b" decl.clauses).map
            (Line.render "" layout.indent)
          ++ decl.itemLines.map
            (Line.render layout.indent layout.indent)
          ++ ["\x7d"]) := by
  have hLines :
      decl.lines =
        openingLines decl.header "\x7b" decl.clauses
          ++ decl.itemLines.map Line.deeper
          ++ [⟨0, "\x7d"⟩] := by
    unfold lines
    split
    · contradiction
    · rename_i hItems
      rw [hItems]
  have hDeeper :
      Line.render "" layout.indent ∘ Line.deeper =
        Line.render layout.indent layout.indent := by
    funext line
    rw [Function.comp_apply, Line.render_deeper,
      String.empty_append]
  rw [render, Layout.render_eq, hLines, Layout.join,
    List.map_append, List.map_append, List.map_map, hDeeper,
    List.map_singleton, Line.render_zero, String.empty_append]

/- A trait that has an item prints a line for it. -/
theorem itemLines_ne_nil
    {decl : TraitDecl}
    (hSome :
      decl.types ≠ [] ∨ decl.consts ≠ [] ∨ decl.fns ≠ []) :
    decl.itemLines ≠ [] := by
  intro hNone
  simp only [itemLines, List.append_eq_nil_iff,
    List.flatMap_eq_nil_iff] at hNone
  rcases hNone with ⟨⟨hTypes, hConsts⟩, hFns⟩
  rcases hSome with hSome | hSome | hSome
  · rcases List.exists_mem_of_ne_nil _ hSome with
      ⟨item, hItem⟩
    exact Item.lines_ne_nil (.type item) (hTypes item hItem)
  · rcases List.exists_mem_of_ne_nil _ hSome with
      ⟨item, hItem⟩
    exact Item.lines_ne_nil (.const item) (hConsts item hItem)
  · rcases List.exists_mem_of_ne_nil _ hSome with
      ⟨item, hItem⟩
    exact Item.lines_ne_nil (.fn item) (hFns item hItem)

/- The head of a trait does not depend on its items. -/
theorem header_insert
    (decl : TraitDecl)
    (n : Nat)
    (item : Item) :
    (decl.insert n item).header = decl.header := by
  cases item <;> rfl

theorem clauses_insert
    (decl : TraitDecl)
    (n : Nat)
    (item : Item) :
    (decl.insert n item).clauses = decl.clauses := by
  cases item <;> rfl

/- One more item adds its lines to those of a trait. -/
theorem render_insert
    {decl : TraitDecl}
    {n : Nat}
    {item : Item}
    (hLe : n ≤ decl.count item)
    (layout : Layout) :
    (decl.insert n item).render layout =
      layout.join
        (decl.linesBefore layout n item
          ++ item.lines.map
            (Line.render layout.indent layout.indent)
          ++ decl.linesAfter layout n item) := by
  have hLines := itemLines_insert hLe
  have hSome : (decl.insert n item).itemLines ≠ [] := by
    rw [hLines]
    simp [item.lines_ne_nil]
  rw [render_of_itemLines layout hSome, hLines, header_insert,
    clauses_insert, linesBefore, linesAfter]
  simp only [List.map_append, List.append_assoc]

end TraitDecl

------------------------------------------------------------
-- Insertion
------------------------------------------------------------

/-
  One more item. What is accepted is a list of parts between two
  tags, and the sections of the three kinds deliver items. When
  the section of an item is put anywhere among the parts, the
  trait is accepted with the item in the list of its kind,
  after the items whose sections are before it. Nothing else in
  the declaration changes. A trait that has an item already is
  printed with the lines of the new one, one level deep, after
  those of the item before it of its kind, or where its kind
  begins. All other lines are the same.
-/
theorem TraitDecl.insertion :
    (∀ (tokens : List Token)
        (decl : TraitDecl),
      ofTokens tokens = .ok decl →
        ∃ (opener close : Token)
            (parts : List (List Token)),
          tokens = opener :: (parts.flatten ++ [close]) ∧
            opener.opens "trait" ∧
            close.closes "trait" ∧
            ∀ part ∈ parts,
              (Section.trait.entryOf? part).isSome) ∧
    (∀ group ∈ [Section.assocType, .assocConst, .assocFn],
      ∀ (inside : List Token)
          (fragment : Fragment),
        Production.run group.id inside = .ok (fragment, []) →
          ∃ item : Item,
            item.group = group ∧ item.fragment = fragment) ∧
    (∀ (opener close : Token)
        (left right : List (List Token))
        (decl : TraitDecl)
        (item : Item)
        (first : Token)
        (inside : List Token),
      opener.opens "trait" →
        close.closes "trait" →
          (∀ part ∈ left ++ right,
            (Section.trait.entryOf? part).isSome) →
            ofTokens
                (opener ::
                  ((left ++ right).flatten ++ [close])) =
                .ok decl →
              first.opens item.tag.text →
                Production.run item.group.id inside =
                    .ok (item.fragment, []) →
                  let n := left.countP item.heads
                  n ≤ decl.count item ∧
                  ofTokens
                      (opener ::
                        ((left ++ (first :: inside)
                            :: right).flatten ++ [close])) =
                    .ok (decl.insert n item) ∧
                  (decl.types ≠ [] ∨ decl.consts ≠ [] ∨
                      decl.fns ≠ [] →
                    ∀ layout,
                      decl.render layout =
                          layout.join
                            (decl.linesBefore layout n item
                              ++ decl.linesAfter layout n
                                item) ∧
                        (decl.insert n item).render layout =
                          layout.join
                            (decl.linesBefore layout n item
                              ++ item.lines.map
                                (Line.render layout.indent
                                  layout.indent)
                              ++ decl.linesAfter layout n
                                item))) := by
  refine ⟨?_, ?_, ?_⟩
  · intro tokens decl hTokens
    exact exists_parts hTokens
  · intro group hGroup inside fragment hRun
    exact Item.exists_fragment_eq hGroup hRun
  · intro opener close left right decl item first inside hOpens
      hClose hParts hTokens hFirst hInside n
    have hPart := Item.entryOf?_part hFirst hInside
    rcases ofTokens_insert hOpens hClose hParts hTokens hPart
      with ⟨hLe, hMore⟩
    refine ⟨hLe, hMore, ?_⟩
    intro hSome layout
    refine ⟨?_, render_insert hLe layout⟩
    rw [render_of_itemLines layout (itemLines_ne_nil hSome),
      decl.itemLines_eq n item, linesBefore, linesAfter]
    simp only [List.map_append, List.append_assoc]

/- A constant between two others, with its line between theirs. -/
theorem TraitDecl.insertion_const :
    let word (text : String) : Token := ⟨.ident, text, false, {}⟩
    let child (name : String) (inside : List Token) :
        List Token :=
      .ofOpenTag name :: (inside ++ [.ofCloseTag name])
    let const (name : String) : List Token :=
      child "assocconst"
        (child "name" [word name] ++ child "type" [word "u8"])
    let stream (parts : List (List Token)) : List Token :=
      .ofOpenTag "trait" :: (parts.flatten
        ++ [.ofCloseTag "trait"])
    let name := child "name" [word "T"]
    let item : Item := .const ⟨word "C", [word "u8"], none⟩
    ∃ decl,
      ofTokens (stream [name, const "A", const "B"]) =
          .ok decl ∧
        ofTokens
            (stream [name, const "A", const "C", const "B"]) =
          .ok (decl.insert 1 item) ∧
        (decl.insert 1 item).render {} =
          "trait T \x7b\n    const A: u8;\n    const C: u8;\n"
            ++ "    const B: u8;\n\x7d\n" := by
  intro word child const stream name item
  have hParts :
      ∀ part ∈ [name, const "A"] ++ [const "B"],
        (Section.trait.entryOf? part).isSome := by
    decide +kernel
  have hTokens :
      ofTokens (stream [name, const "A", const "B"]) =
        .ok
          { name := word "T"
            consts :=
              [⟨word "A", [word "u8"], none⟩,
                ⟨word "B", [word "u8"], none⟩] } := by
    decide +kernel
  have hInside :
      Production.run item.group.id (const "C").tail =
        .ok (item.fragment, []) := by
    decide +kernel
  rcases insertion.2.2 (.ofOpenTag "trait") (.ofCloseTag "trait")
      [name, const "A"] [const "B"] _ item
      (.ofOpenTag "assocconst") (const "C").tail (by decide)
      (by decide) hParts hTokens (by decide) hInside with
    ⟨_, hMore, hText⟩
  have hCount : [name, const "A"].countP item.heads = 1 := by
    decide +kernel
  rw [hCount] at hMore hText
  refine ⟨_, hTokens, hMore, ?_⟩
  rw [(hText (by decide) {}).2]
  decide +kernel

end TraitMarkup
