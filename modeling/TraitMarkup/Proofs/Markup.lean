import TraitMarkup.Proofs.WellFormed

/-
  Writing declarations as markup.

  Every part of a declaration is written between its tags, in
  one fixed order. A part that may be left out is written only
  when there is something in it; the body of a function is
  written whenever there is one, even if it is empty.

  A well-formed declaration that is written this way is read
  back as it was.

  Key definitions include:
    * `Tag.enclose`
    * `TraitDecl.markup`
    * `Section.Writes`

  Main declarations:
    * `Section.Writes.group`
    * `TraitDecl.derivedFrom_markup`
    * `TraitDecl.ofTokens_image`
-/

namespace TraitMarkup

------------------------------------------------------------
-- Tags
------------------------------------------------------------

namespace Tag

/- The opening tag as it is written. -/
def opening
    (tag : Tag) :
    Token :=
  .ofOpenTag tag.text

/- The closing tag as it is written. -/
def closing
    (tag : Tag) :
    Token :=
  .ofCloseTag tag.text

/- The empty tag as it is written. -/
def marking
    (tag : Tag) :
    Token where
  kind := .emptyTag
  text := "<" ++ tag.text ++ "/>"

/- Tokens between the tags of a section or a leaf. -/
def enclose
    (tag : Tag)
    (inside : List Token) :
    List Token :=
  tag.opening :: (inside ++ [tag.closing])

/- An opening tag opens what it names. -/
theorem opens_opening
    (tag : Tag) :
    tag.opening.opens tag.text := by
  simp [opening, Token.ofOpenTag, Token.opens, Token.tagName?]

/- A closing tag closes what it names. -/
theorem closes_closing
    (tag : Tag) :
    tag.closing.closes tag.text := by
  simp [closing, Token.ofCloseTag, Token.closes,
    Token.tagName?]

/- An empty tag marks what it names. -/
theorem marks_marking
    (tag : Tag) :
    tag.marking.marks tag.text := by
  simp [marking, Token.marks, Token.tagName?]

end Tag

------------------------------------------------------------
-- Parts That May Be Left Out
------------------------------------------------------------

/- A list, unless there is nothing in it. -/
def givenList
    {α : Type}
    (values : List α) :
    Option (List α) :=
  if values.isEmpty then none else some values

/- Generics, unless there is nothing in them. -/
def Generics.given
    (generics : Generics) :
    Option Generics :=
  if generics.params.isEmpty && generics.requirements.isEmpty
  then none
  else some generics

------------------------------------------------------------
-- Bounds And Parameters
------------------------------------------------------------

/- The code of a bound, with the question mark if relaxed. -/
def TraitBound.spell
    (bound : TraitBound) :
    Code :=
  if bound.relaxed then
    { kind := .punct, text := "?" } :: bound.path
  else
    bound.path

/- Each token between tags of its own. -/
def Tag.encloseEach
    (tag : Tag)
    (tokens : List Token) :
    List Token :=
  tokens.flatMap (fun token => tag.enclose [token])

/- A bound of a type. -/
def Bound.markup : Bound → List Token
  | trait bound => Tag.typeBound.enclose bound.spell
  | lifetime name => Tag.lifetimeBound.enclose [name]
  | forAll lifetimes bound =>
      Tag.forBound.enclose
        (Tag.lifetime.encloseEach lifetimes
          ++ Tag.typeBound.enclose bound.spell)

/- A generic parameter. -/
def GenericParam.markup : GenericParam → List Token
  | lifetime name bounds =>
      Tag.lifetime.enclose
        (Tag.name.enclose [name]
          ++ Tag.lifetimeBound.encloseEach bounds)
  | type name bounds =>
      Tag.type.enclose
        (Tag.name.enclose [name]
          ++ bounds.flatMap Bound.markup)
  | const name valueType =>
      Tag.const.enclose
        (Tag.name.enclose [name]
          ++ Tag.type.enclose valueType)

/- The inside of a section of generics. -/
def Generics.markup
    (generics : Generics) :
    List Token :=
  generics.params.flatMap GenericParam.markup
    ++ generics.requirements.flatMap
      (fun bound => Tag.req.enclose bound.spell)

------------------------------------------------------------
-- Where Clauses
------------------------------------------------------------

/- The inside of a clause on a type. -/
def TypeClause.markup
    (clause : TypeClause) :
    List Token :=
  Tag.type.enclose clause.type
    ++ clause.bounds.flatMap Bound.markup

/- A where clause. -/
def WhereClause.markup : WhereClause → List Token
  | lifetime name bounds =>
      Tag.lifetimeClause.enclose
        (Tag.lifetime.enclose [name]
          ++ Tag.lifetimeBound.encloseEach bounds)
  | type clause => Tag.typeClause.enclose clause.markup
  | forAll lifetimes clause =>
      Tag.forClause.enclose
        (Tag.lifetime.encloseEach lifetimes
          ++ Tag.typeClause.enclose clause.markup)

/- A where section, unless there is nothing in it. -/
def WhereClause.markupAll
    (clauses : List WhereClause) :
    List Token :=
  (givenList clauses).toList.flatMap
    (fun clauses =>
      Tag.clauses.enclose (clauses.flatMap markup))

------------------------------------------------------------
-- Associated Items
------------------------------------------------------------

/- An associated type. -/
def AssocType.markup
    (item : AssocType) :
    List Token :=
  Tag.assocType.enclose
    (Tag.name.enclose [item.name]
      ++ (Generics.given ⟨item.params, item.bounds⟩).toList.flatMap
        (fun generics => Tag.bounds.enclose generics.markup)
      ++ WhereClause.markupAll item.clauses)

/- An associated constant. -/
def AssocConst.markup
    (item : AssocConst) :
    List Token :=
  Tag.assocConst.enclose
    (Tag.name.enclose [item.name]
      ++ Tag.type.enclose item.type
      ++ item.value.toList.flatMap Tag.defaultValue.enclose)

/- An argument, as a name or as a pattern. -/
def FnParam.markup
    (param : FnParam) :
    List Token :=
  let tag : Tag := if param.isPattern then .pat else .name
  Tag.param.enclose
    (tag.enclose param.arg ++ Tag.type.enclose param.type)

/- The mark of something unsafe. -/
def unsafeMarkup
    (isUnsafe : Bool) :
    List Token :=
  if isUnsafe then [Tag.unsafety.marking] else []

/- An associated function. -/
def AssocFn.markup
    (item : AssocFn) :
    List Token :=
  Tag.assocFn.enclose
    (Tag.name.enclose [item.name]
      ++ unsafeMarkup item.qualifiers.isUnsafe
      ++ Tag.abi.encloseEach item.qualifiers.abi.toList
      ++ (Generics.given ⟨item.params, []⟩).toList.flatMap
        (fun generics => Tag.gparams.enclose generics.markup)
      ++ (givenList item.args).toList.flatMap
        (fun args =>
          Tag.params.enclose (args.flatMap FnParam.markup))
      ++ item.ret.toList.flatMap Tag.ret.enclose
      ++ WhereClause.markupAll item.clauses
      ++ item.body.toList.flatMap Tag.rust.enclose)

------------------------------------------------------------
-- Trait Declarations
------------------------------------------------------------

/- A whole declaration. -/
def TraitDecl.markup
    (decl : TraitDecl) :
    List Token :=
  Tag.trait.enclose
    (Tag.name.enclose [decl.name]
      ++ decl.vis.toList.flatMap Tag.vis.enclose
      ++ unsafeMarkup decl.isUnsafe
      ++ (Generics.given
          ⟨decl.params, decl.requirements⟩).toList.flatMap
        (fun generics => Tag.bounds.enclose generics.markup)
      ++ WhereClause.markupAll decl.clauses
      ++ decl.types.flatMap AssocType.markup
      ++ decl.consts.flatMap AssocConst.markup
      ++ decl.fns.flatMap AssocFn.markup)

------------------------------------------------------------
-- Written Entries
------------------------------------------------------------

/- The tokens are pieces that give a section these entries. -/
def Section.Writes
    (group : Section)
    (entries : List Entry)
    (tokens : List Token) : Prop :=
  ∃ pieces : List Piece,
    (∀ piece ∈ pieces, piece.Fits group) ∧
      pieces.map Piece.entry = entries ∧
      pieces.flatMap Piece.tokens = tokens

namespace Section.Writes

variable {group : Section}

/- Nothing is written for no entries. -/
theorem nil :
    group.Writes [] [] := by
  refine ⟨[], ?_, rfl, rfl⟩
  intro piece hPiece
  cases hPiece

/- Entries are written one after the other. -/
theorem append
    {left right : List Entry}
    {first second : List Token}
    (hLeft : group.Writes left first)
    (hRight : group.Writes right second) :
    group.Writes (left ++ right) (first ++ second) := by
  rcases hLeft with ⟨before, hBefore, rfl, rfl⟩
  rcases hRight with ⟨after, hAfter, rfl, rfl⟩
  refine ⟨before ++ after, ?_, List.map_append,
    List.flatMap_append⟩
  intro piece hPiece
  rcases List.mem_append.mp hPiece with hOld | hNew
  · exact hBefore piece hOld
  · exact hAfter piece hNew

/- One entry is written for each value. -/
theorem each
    {α : Type}
    {values : List α}
    {entry : α → Entry}
    {markup : α → List Token}
    (hEach :
      ∀ value ∈ values,
        group.Writes [entry value] (markup value)) :
    group.Writes (values.map entry)
      (values.flatMap markup) := by
  induction values with
  | nil => exact nil
  | cons value values ih =>
      have hFirst := hEach value List.mem_cons_self
      have hRest :=
        ih fun other hOther =>
          hEach other (List.mem_cons_of_mem value hOther)
      simpa using hFirst.append hRest

/- A mark is written as an empty tag. -/
theorem mark
    {tag : Tag}
    (hMark : group.hasMark tag) :
    group.Writes [.mark tag] [tag.marking] := by
  refine ⟨[.mark tag.marking tag], ?_, rfl, rfl⟩
  intro piece hPiece
  rw [List.mem_singleton.mp hPiece]
  exact .mark tag.marks_marking hMark

/- A child is written between its tags. -/
theorem child
    {tag : Tag}
    {kind : Child}
    {inside : List Token}
    {fragment : Fragment}
    (hChild : group.child? tag = some kind)
    (hDerives :
      kind.production.Derives (inside ++ [tag.closing])
        fragment) :
    group.Writes [.child tag fragment]
      (tag.enclose inside) := by
  refine
    ⟨[.child tag.opening (inside ++ [tag.closing]) tag
      fragment], ?_, rfl, List.append_nil _⟩
  intro piece hPiece
  rw [List.mem_singleton.mp hPiece]
  exact .child tag.opens_opening hChild hDerives

/- A leaf is written as the code that it holds. -/
theorem leaf
    {tag : Tag}
    {kind : Child}
    {leaf : Leaf}
    {code : Code}
    {fragment : Fragment}
    (hChild : group.child? tag = some kind)
    (hLeaf : kind.production = .ofLeaf leaf)
    (hContent : code.IsContent)
    (hHolds : leaf.Holds code fragment) :
    group.Writes [.child tag fragment]
      (tag.enclose code) := by
  apply child hChild
  have hTag := Section.closeTag_of_child? hChild
  rw [hLeaf] at hTag ⊢
  subst hTag
  exact .leaf hContent hHolds (Tag.closes_closing _)

end Section.Writes

namespace Draft

variable {α : Type}
variable {draft : Draft}
variable {group : Section}
variable {field : Field}
variable {form : α → Fragment}

/- A field that may have one value has at most one. -/
theorem HasAtMostOne.length_le
    {value : Option α}
    (hValue : draft.HasAtMostOne group field form value) :
    (draft.values group field).length ≤ 1 := by
  rw [hValue]
  cases value with
  | none => exact Nat.zero_le 1
  | some value => exact Nat.le_refl 1

end Draft

/-
  What a section forms says of every single field that it is
  given at most once; only the marks are left to be counted.
-/
theorem Section.setsOnce_of_forms
    {group : Section}
    {draft : Draft}
    {fragment : Fragment}
    (hForms : group.Forms draft fragment)
    (hMarks :
      ∀ tag, draft.entries.count (.mark tag) ≤ 1) :
    group.SetsOnce draft := by
  refine ⟨?_, hMarks⟩
  intro tag child hChild hSingle
  cases hForms <;> cases tag <;> cases hChild <;>
    cases hSingle
  all_goals apply Draft.HasAtMostOne.length_le
  all_goals
    first
    | assumption
    | apply Draft.HasOne.atMostOne
      assumption

namespace Section.Writes

/- A section is written as the entries that form it. -/
theorem group
    {outer inner : Section}
    {tag : Tag}
    {kind : Child}
    {entries : List Entry}
    {inside : List Token}
    {fragment : Fragment}
    (hChild : outer.child? tag = some kind)
    (hInner : kind.production = .ofSection inner)
    (hWrites : inner.Writes entries inside)
    (hMarks : ∀ mark, entries.count (.mark mark) ≤ 1)
    (hForms : inner.Forms ⟨entries⟩ fragment) :
    outer.Writes [.child tag fragment]
      (tag.enclose inside) := by
  apply child hChild
  have hTag := Section.closeTag_of_child? hChild
  rw [hInner] at hTag ⊢
  subst hTag
  rcases hWrites with ⟨pieces, hFits, rfl, rfl⟩
  exact Production.derives_of_fits hFits
    (setsOnce_of_forms hForms hMarks) hForms
    (Tag.closes_closing _)

end Section.Writes

------------------------------------------------------------
-- Entries As Lists Of Values
------------------------------------------------------------

namespace Entry

variable {α : Type}

/- A child of one tag for each value. -/
def each
    (tag : Tag)
    (form : α → Fragment)
    (values : List α) :
    List Entry :=
  values.map (fun value => .child tag (form value))

/- The mark of something unsafe. -/
def unsafeMark
    (isUnsafe : Bool) :
    List Entry :=
  if isUnsafe then [.mark .unsafety] else []

/- Children are no marks. -/
@[simp] theorem count_mark_each
    (mark tag : Tag)
    (form : α → Fragment)
    (values : List α) :
    (each tag form values).count (.mark mark) = 0 := by
  rw [List.count_eq_zero, each]
  intro hMark
  rcases List.mem_map.mp hMark with ⟨value, _, hEqual⟩
  cases hEqual

/- A mark is set once. -/
theorem count_unsafeMark
    (mark : Tag)
    (isUnsafe : Bool) :
    (unsafeMark isUnsafe).count (.mark mark) ≤ 1 := by
  cases isUnsafe with
  | false => exact Nat.zero_le 1
  | true => exact List.count_le_length

@[simp] theorem mark_mem_unsafeMark
    (isUnsafe : Bool) :
    Entry.mark .unsafety ∈ unsafeMark isUnsafe ↔
      isUnsafe = true := by
  cases isUnsafe <;> simp [unsafeMark]

@[simp] theorem mark_mem_each
    (mark tag : Tag)
    (form : α → Fragment)
    (values : List α) :
    Entry.mark mark ∉ each tag form values := by
  rw [← List.count_eq_zero]
  exact count_mark_each mark tag form values

end Entry

namespace Draft

variable {α : Type}

/- The values of entries that follow each other. -/
@[simp] theorem values_append
    (left right : List Entry)
    (group : Section)
    (field : Field) :
    (⟨left ++ right⟩ : Draft).values group field =
      (⟨left⟩ : Draft).values group field ++
        (⟨right⟩ : Draft).values group field :=
  List.filterMap_append

/- Children fill the field of their tag. -/
@[simp] theorem values_each_same
    {tag : Tag}
    {group : Section}
    {field : Field}
    (hField :
      (group.child? tag).map Child.field = some field)
    (hKeep :
      (group.child? tag).map Child.adaptation = some .keep)
    (form : α → Fragment)
    (values : List α) :
    (⟨Entry.each tag form values⟩ : Draft).values group
        field =
      values.map form := by
  rcases Option.map_eq_some_iff.mp hField with
    ⟨child, hChild, hSame⟩
  rw [hChild, Option.map_some, Option.some.injEq] at hKeep
  rw [Draft.values, Entry.each, List.filterMap_map,
    ← List.filterMap_eq_map]
  congr 1
  funext value
  simp [Entry.value?, hChild, hSame, Child.adapt, hKeep]

/- Children fill no other field. -/
@[simp] theorem values_each_other
    {tag : Tag}
    {group : Section}
    {field : Field}
    (hField :
      (group.child? tag).map Child.field ≠ some field)
    (form : α → Fragment)
    (values : List α) :
    (⟨Entry.each tag form values⟩ : Draft).values group
        field = [] := by
  rw [Draft.values, Entry.each, List.filterMap_map,
    List.filterMap_eq_nil_iff]
  intro value _
  cases hChild : group.child? tag with
  | none => simp [Entry.value?, hChild]
  | some child =>
      rw [hChild, Option.map_some, Ne, Option.some.injEq]
        at hField
      simp [Entry.value?, hChild, hField]

/- A mark is no value. -/
@[simp] theorem values_unsafeMark
    (isUnsafe : Bool)
    (group : Section)
    (field : Field) :
    (⟨Entry.unsafeMark isUnsafe⟩ : Draft).values group
        field = [] := by
  cases isUnsafe <;> rfl

end Draft

------------------------------------------------------------
-- Bounds
------------------------------------------------------------

/- A token of a kind that is no tag is content. -/
theorem Code.isContent_singleton
    {token : Token}
    {kind : Kind}
    (hKind : token.kind = kind)
    (hTag : kind ≠ .closeTag ∧ kind ≠ .emptyTag) :
    Code.IsContent [token] := by
  intro other hOther
  rw [List.mem_singleton.mp hOther, hKind]
  exact hTag

namespace Section.Writes

variable {group : Section}
variable {tag : Tag}
variable {kind : Child}

/- A name is written between tags. -/
theorem name
    {token : Token}
    (hChild : group.child? tag = some kind)
    (hLeaf : kind.production = .ofLeaf .name)
    (hKind : token.kind = .ident) :
    group.Writes [.child tag (.token token)]
      (tag.enclose [token]) :=
  leaf hChild hLeaf (Code.isContent_singleton hKind (by decide))
    (.name hKind)

/- Each lifetime is written between tags of its own. -/
theorem lifetimes
    {leaf : Leaf}
    {tokens : List Token}
    (hChild : group.child? tag = some kind)
    (hLeaf : kind.production = .ofLeaf leaf)
    (hHolds :
      ∀ token : Token, token.kind = .lifetime →
        leaf.Holds [token] (.token token))
    (hTokens : Code.AreLifetimes tokens) :
    group.Writes (Entry.each tag .token tokens)
      (tag.encloseEach tokens) := by
  apply each
  intro token hToken
  have hKind := hTokens token hToken
  exact Writes.leaf hChild hLeaf
    (Code.isContent_singleton hKind (by decide))
    (hHolds token hKind)

end Section.Writes

namespace TraitBound

/- What a well-formed bound spells may stand between tags. -/
theorem isContent_spell
    {bound : TraitBound}
    (hBound : bound.WellFormed) :
    bound.spell.IsContent := by
  unfold spell
  split
  · intro token hToken
    rcases List.mem_cons.mp hToken with rfl | hPath
    · decide
    · exact hBound.1.1 token hPath
  · exact hBound.1.1

/- A well-formed bound is spelled as it is read. -/
theorem spellsBound_spell
    {bound : TraitBound}
    (hBound : bound.WellFormed) :
    bound.spell.SpellsBound bound := by
  rcases bound with ⟨path, relaxed⟩
  cases relaxed with
  | false => exact .plain hBound.1.2 (hBound.2 rfl)
  | true => exact .relaxed ⟨rfl, rfl⟩ hBound.1.2

end TraitBound

namespace Bound

/- The child that a bound of a type is written as. -/
def entry : Bound → Entry
  | trait bound => .child .typeBound (.bound (.trait bound))
  | lifetime name => .child .lifetimeBound (.token name)
  | forAll lifetimes bound =>
      .child .forBound (.bound (.forAll lifetimes bound))

/- Lifetimes and a path make a bound of their own. -/
theorem forms_forBound
    {lifetimes : List Token}
    (hSome : lifetimes ≠ [])
    (bound : TraitBound) :
    Section.forBound.Forms
      ⟨Entry.each .lifetime .token lifetimes
        ++ Entry.each .typeBound (.bound ∘ .trait) [bound]⟩
      (.bound (.forAll lifetimes bound)) := by
  refine .forBound ?_ hSome ?_
  · simp (disch := decide) [Draft.HasAll]
  · simp (disch := decide) [Draft.HasOne]

/- A bound is written in every section that has bounds. -/
theorem writes
    {group : Section}
    (hTable :
      ∀ tag child, Section.boundChild? tag = some child →
        group.child? tag = some child)
    {bound : Bound}
    (hBound : bound.WellFormed) :
    group.Writes [bound.entry] bound.markup := by
  cases bound with
  | trait bound =>
      exact .leaf (hTable .typeBound _ rfl) rfl
        (TraitBound.isContent_spell hBound)
        (.typeBound (TraitBound.spellsBound_spell hBound))
  | lifetime name =>
      exact .leaf (hTable .lifetimeBound _ rfl) rfl
        (Code.isContent_singleton hBound (by decide))
        (.lifetimeBound hBound)
  | forAll lifetimes bound =>
      rcases hBound with ⟨hLifetimes, hSome, hBound⟩
      have hPath :
          Section.forBound.Writes
            (Entry.each .typeBound (.bound ∘ .trait) [bound])
            (Tag.typeBound.enclose bound.spell) :=
        .leaf rfl rfl (TraitBound.isContent_spell hBound)
          (.typeBound (TraitBound.spellsBound_spell hBound))
      have hNames :
          Section.forBound.Writes
            (Entry.each .lifetime .token lifetimes)
            (Tag.lifetime.encloseEach lifetimes) :=
        .lifetimes rfl rfl (fun _ => .lifetime) hLifetimes
      exact .group (hTable .forBound _ rfl) rfl
        (hNames.append hPath) (by simp)
        (forms_forBound hSome bound)

/- The entries of bounds list the bounds. -/
@[simp] theorem values_entries
    {group : Section}
    (hGroup : group = .typeParam ∨ group = .typeClause)
    (bounds : List Bound) :
    (⟨bounds.map entry⟩ : Draft).values group .bounds =
      bounds.map .bound := by
  rw [Draft.values, List.filterMap_map,
    ← List.filterMap_eq_map]
  congr 1
  funext bound
  rcases hGroup with rfl | rfl <;> cases bound <;> rfl

/- The entries of bounds fill no other field. -/
@[simp] theorem values_entries_other
    {group : Section}
    {field : Field}
    (hGroup : group = .typeParam ∨ group = .typeClause)
    (hField : field ≠ .bounds)
    (bounds : List Bound) :
    (⟨bounds.map entry⟩ : Draft).values group field =
      [] := by
  rw [Draft.values, List.filterMap_map,
    List.filterMap_eq_nil_iff]
  intro bound _
  rcases hGroup with rfl | rfl <;> cases bound <;>
    exact if_neg hField.symm

/- Bounds are no marks. -/
@[simp] theorem count_mark_entries
    (mark : Tag)
    (bounds : List Bound) :
    (bounds.map entry).count (.mark mark) = 0 := by
  rw [List.count_eq_zero]
  intro hMark
  rcases List.mem_map.mp hMark with ⟨bound, _, hEqual⟩
  cases bound <;> cases hEqual

end Bound

------------------------------------------------------------
-- Generic Parameters
------------------------------------------------------------

namespace GenericParam

/- The child that a generic parameter is written as. -/
def entry : GenericParam → Entry
  | lifetime name bounds =>
      .child .lifetime (.param (.lifetime name bounds))
  | type name bounds =>
      .child .type (.param (.type name bounds))
  | const name valueType =>
      .child .const (.param (.const name valueType))

/- A name and lifetimes make a lifetime parameter. -/
theorem forms_lifetimeParam
    (name : Token)
    (bounds : List Token) :
    Section.lifetimeParam.Forms
      ⟨Entry.each .name .token [name]
        ++ Entry.each .lifetimeBound .token bounds⟩
      (.param (.lifetime name bounds)) := by
  refine .lifetimeParam ?_ ?_
  · simp (disch := decide) [Draft.HasOne]
  · simp (disch := decide) [Draft.HasAll]

/- A name and bounds make a type parameter. -/
theorem forms_typeParam
    (name : Token)
    (bounds : List Bound) :
    Section.typeParam.Forms
      ⟨Entry.each .name .token [name]
        ++ bounds.map Bound.entry⟩
      (.param (.type name bounds)) := by
  refine .typeParam ?_ ?_
  · simp (disch := decide) [Draft.HasOne]
  · simp (disch := decide) [Draft.HasAll]

/- A name and a type make a constant parameter. -/
theorem forms_constParam
    (name : Token)
    (valueType : Code) :
    Section.constParam.Forms
      ⟨Entry.each .name .token [name]
        ++ Entry.each .type .code [valueType]⟩
      (.param (.const name valueType)) := by
  refine .constParam ?_ ?_
  · simp (disch := decide) [Draft.HasOne]
  · simp (disch := decide) [Draft.HasOne]

/- A parameter is written in every section of generics. -/
theorem writes
    {group : Section}
    (hTable :
      ∀ tag child, Section.genericChild? tag = some child →
        group.child? tag = some child)
    {param : GenericParam}
    (hParam : param.WellFormed) :
    group.Writes [param.entry] param.markup := by
  cases param with
  | lifetime name bounds =>
      rcases hParam with ⟨hName, hBounds⟩
      have hFirst :
          Section.lifetimeParam.Writes
            (Entry.each .name .token [name])
            (Tag.name.enclose [name]) :=
        .leaf rfl rfl
          (Code.isContent_singleton hName (by decide))
          (.lifetimeName hName)
      have hRest :
          Section.lifetimeParam.Writes
            (Entry.each .lifetimeBound .token bounds)
            (Tag.lifetimeBound.encloseEach bounds) :=
        .lifetimes rfl rfl (fun _ => .lifetimeBound) hBounds
      exact .group (hTable .lifetime _ rfl) rfl
        (hFirst.append hRest) (by simp)
        (forms_lifetimeParam name bounds)
  | type name bounds =>
      rcases hParam with ⟨hName, hBounds⟩
      have hFirst :
          Section.typeParam.Writes
            (Entry.each .name .token [name])
            (Tag.name.enclose [name]) :=
        .name rfl rfl hName
      have hRest :
          Section.typeParam.Writes (bounds.map Bound.entry)
            (bounds.flatMap Bound.markup) := by
        apply Section.Writes.each
        intro bound hBound
        refine Bound.writes ?_ (hBounds bound hBound)
        intro tag child hChild
        cases tag <;> cases hChild <;> rfl
      exact .group (hTable .type _ rfl) rfl
        (hFirst.append hRest) (by simp)
        (forms_typeParam name bounds)
  | const name valueType =>
      rcases hParam with ⟨hName, hType⟩
      have hFirst :
          Section.constParam.Writes
            (Entry.each .name .token [name])
            (Tag.name.enclose [name]) :=
        .name rfl rfl hName
      have hRest :
          Section.constParam.Writes
            (Entry.each .type .code [valueType])
            (Tag.type.enclose valueType) :=
        .leaf rfl rfl hType.1 (.type hType.2)
      exact .group (hTable .const _ rfl) rfl
        (hFirst.append hRest) (by simp)
        (forms_constParam name valueType)

/- Parameters are no marks. -/
@[simp] theorem count_mark_entries
    (mark : Tag)
    (params : List GenericParam) :
    (params.map entry).count (.mark mark) = 0 := by
  rw [List.count_eq_zero]
  intro hMark
  rcases List.mem_map.mp hMark with ⟨param, _, hEqual⟩
  cases param <;> cases hEqual

/- The parameters of one rank, in source order. -/
def ofRank
    (rank : Nat)
    (params : List GenericParam) :
    List GenericParam :=
  params.filter (fun param => param.rank = rank)

theorem ofRank_cons
    (place : Nat)
    (param : GenericParam)
    (params : List GenericParam) :
    ofRank place (param :: params) =
      if param.rank = place then
        param :: ofRank place params
      else
        ofRank place params := by
  simp [ofRank, List.filter_cons]

/- Sorted parameters are those of each rank in turn. -/
theorem append_ofRank
    {params : List GenericParam}
    (hSorted :
      params.Pairwise
        (fun left right => left.rank ≤ right.rank)) :
    ofRank 0 params ++ ofRank 1 params ++ ofRank 2 params =
      params := by
  induction params with
  | nil => rfl
  | cons param params ih =>
      rcases List.pairwise_cons.mp hSorted with
        ⟨hFirst, hRest⟩
      have hLater := ih hRest
      -- Ranks below the first one do not come again.
      have hNone :
          ∀ rank, rank < param.rank →
            ofRank rank params = [] := by
        intro rank hRank
        rw [ofRank, List.filter_eq_nil_iff]
        intro other hOther
        have hLe := hFirst other hOther
        simp only [decide_eq_true_eq]
        omega
      cases param with
      | lifetime name bounds =>
          simpa [ofRank_cons, rank] using hLater
      | type name bounds =>
          have hZero : ofRank 0 params = [] :=
            hNone 0 Nat.one_pos
          simpa [ofRank_cons, rank, hZero] using hLater
      | const name valueType =>
          have hZero : ofRank 0 params = [] :=
            hNone 0 Nat.two_pos
          have hOne : ofRank 1 params = [] :=
            hNone 1 Nat.one_lt_two
          simpa [ofRank_cons, rank, hZero, hOne] using hLater

/- The rank of the parameters that a field lists. -/
def rankOf : Field → Nat
  | .lifetimes => 0
  | .types => 1
  | .consts => 2
  | _ => 3

/- The entries of parameters list those of each rank. -/
theorem values_entries
    {group : Section}
    (hGroup : group = .bounds ∨ group = .gparams)
    (field : Field)
    (params : List GenericParam) :
    (⟨params.map entry⟩ : Draft).values group field =
      (ofRank (rankOf field) params).map .param := by
  induction params with
  | nil => rfl
  | cons param params ih =>
      rw [Draft.values] at ih ⊢
      rw [List.map_cons, List.filterMap_cons, ih, ofRank_cons]
      rcases hGroup with rfl | rfl <;> cases param <;>
        cases field <;> rfl

/- No parameter is of a rank beyond the constants. -/
@[simp] theorem ofRank_three
    (params : List GenericParam) :
    ofRank 3 params = [] := by
  rw [ofRank, List.filter_eq_nil_iff]
  intro param _
  cases param <;> simp [rank]

end GenericParam

namespace Generics

/- Generics that are left out are empty. -/
@[simp] theorem getD_given
    (generics : Generics) :
    generics.given.getD {} = generics := by
  rcases generics with ⟨params, requirements⟩
  unfold given
  split
  · rename_i hEmpty
    simp only [Bool.and_eq_true, List.isEmpty_iff] at hEmpty
    rw [hEmpty.1, hEmpty.2]
    rfl
  · rfl

/- Generics that are given are these. -/
theorem eq_of_mem_given
    {generics other : Generics}
    (hGiven : other ∈ generics.given.toList) :
    other = generics := by
  unfold given at hGiven
  split at hGiven
  · cases hGiven
  · exact List.mem_singleton.mp hGiven

/- The children of a section of bounds. -/
def entries
    (generics : Generics) :
    List Entry :=
  generics.params.map GenericParam.entry
    ++ Entry.each .req (.bound ∘ .trait) generics.requirements

/- Sorted parameters and requirements make generics. -/
theorem forms_bounds
    {generics : Generics}
    (hGenerics : generics.WellFormed) :
    Section.bounds.Forms ⟨generics.entries⟩
      (.generics generics) := by
  have hParams :=
    GenericParam.append_ofRank hGenerics.1.2
  have hForms :
      Section.bounds.Forms ⟨generics.entries⟩
        (.generics
          { params :=
              GenericParam.ofRank 0 generics.params
                ++ GenericParam.ofRank 1 generics.params
                ++ GenericParam.ofRank 2 generics.params
            requirements := generics.requirements }) := by
    refine .bounds ?_ ?_ ?_ ?_ <;>
      simp (disch := decide) [Draft.HasAll, entries,
        GenericParam.values_entries, GenericParam.rankOf]
  rw [hParams] at hForms
  exact hForms

/- Sorted parameters alone make generics of a function. -/
theorem forms_gparams
    {params : List GenericParam}
    (hParams : GenericParam.AreWellFormed params)
    (hSome : params ≠ []) :
    Section.gparams.Forms ⟨params.map GenericParam.entry⟩
      (.generics ⟨params, []⟩) := by
  have hSorted := GenericParam.append_ofRank hParams.2
  have hForms :
      Section.gparams.Forms ⟨params.map GenericParam.entry⟩
        (.generics
          { params :=
              GenericParam.ofRank 0 params
                ++ GenericParam.ofRank 1 params
                ++ GenericParam.ofRank 2 params
            requirements := [] }) := by
    have hStill := hSorted.trans_ne hSome
    refine .gparams ?_ ?_ ?_ hStill <;>
      simp (disch := decide) [Draft.HasAll,
        GenericParam.values_entries, GenericParam.rankOf]
  rw [hSorted] at hForms
  exact hForms

/- Bounds are written unless there is nothing in them. -/
theorem writes_bounds
    {group : Section}
    {kind : Child}
    (hChild : group.child? .bounds = some kind)
    (hInner : kind.production = .ofSection .bounds)
    {generics : Generics}
    (hGenerics : generics.WellFormed) :
    group.Writes
      (Entry.each .bounds .generics generics.given.toList)
      (generics.given.toList.flatMap
        (fun given => Tag.bounds.enclose given.markup)) := by
  apply Section.Writes.each
  intro given hGiven
  rw [eq_of_mem_given hGiven]
  have hParams :
      Section.bounds.Writes
        (generics.params.map GenericParam.entry)
        (generics.params.flatMap GenericParam.markup) := by
    apply Section.Writes.each
    intro param hParam
    refine GenericParam.writes ?_ (hGenerics.1.1 param hParam)
    intro tag child hTable
    cases tag <;> cases hTable <;> rfl
  have hRequirements :
      Section.bounds.Writes
        (Entry.each .req (.bound ∘ .trait)
          generics.requirements)
        (generics.requirements.flatMap
          (fun bound => Tag.req.enclose bound.spell)) := by
    apply Section.Writes.each
    intro bound hBound
    have hWellFormed := hGenerics.2 bound hBound
    exact .leaf rfl rfl
      (TraitBound.isContent_spell hWellFormed)
      (.req (TraitBound.spellsBound_spell hWellFormed))
  exact .group hChild hInner (hParams.append hRequirements)
    (by simp) (forms_bounds hGenerics)

/- The parameters of a function, unless it has none. -/
theorem writes_gparams
    {params : List GenericParam}
    (hParams : GenericParam.AreWellFormed params) :
    Section.assocFn.Writes
      (Entry.each .gparams .generics
        (given ⟨params, []⟩).toList)
      ((given ⟨params, []⟩).toList.flatMap
        (fun given => Tag.gparams.enclose given.markup)) := by
  apply Section.Writes.each
  intro given hGiven
  have hSome : params ≠ [] := by
    rintro rfl
    cases hGiven
  rw [eq_of_mem_given hGiven]
  have hWrites :
      Section.gparams.Writes (params.map GenericParam.entry)
        (markup ⟨params, []⟩) := by
    rw [markup, List.flatMap_nil, List.append_nil]
    apply Section.Writes.each
    intro param hParam
    refine GenericParam.writes ?_ (hParams.1 param hParam)
    intro tag child hTable
    cases tag <;> cases hTable <;> rfl
  exact .group rfl rfl hWrites (by simp)
    (forms_gparams hParams hSome)

end Generics

------------------------------------------------------------
-- Where Clauses
------------------------------------------------------------

/- A list that is left out is empty. -/
@[simp] theorem getD_givenList
    {α : Type}
    (values : List α) :
    (givenList values).getD [] = values := by
  cases values <;> rfl

/- A list that is given is this one, and not empty. -/
theorem eq_of_mem_givenList
    {α : Type}
    {values other : List α}
    (hGiven : other ∈ (givenList values).toList) :
    other = values ∧ values ≠ [] := by
  cases values with
  | nil => cases hGiven
  | cons value values =>
      exact ⟨List.mem_singleton.mp hGiven,
        List.cons_ne_nil value values⟩

namespace TypeClause

/- The children of a clause on a type. -/
def entries
    (clause : TypeClause) :
    List Entry :=
  Entry.each .type .code [clause.type]
    ++ clause.bounds.map Bound.entry

/- A type and bounds make a clause. -/
theorem forms
    (clause : TypeClause) :
    Section.typeClause.Forms ⟨clause.entries⟩
      (.clause (.type clause)) := by
  refine .typeClause ?_ ?_
  · simp (disch := decide) [Draft.HasOne, entries]
  · simp (disch := decide) [Draft.HasAll, entries]

/- A clause is written where a section has such clauses. -/
theorem writes
    {group : Section}
    {kind : Child}
    (hChild : group.child? .typeClause = some kind)
    (hInner : kind.production = .ofSection .typeClause)
    {clause : TypeClause}
    (hClause : clause.WellFormed) :
    group.Writes [.child .typeClause (.clause (.type clause))]
      (Tag.typeClause.enclose clause.markup) := by
  have hType :
      Section.typeClause.Writes
        (Entry.each .type .code [clause.type])
        (Tag.type.enclose clause.type) :=
    .leaf rfl rfl hClause.1.1 (.type hClause.1.2)
  have hBounds :
      Section.typeClause.Writes
        (clause.bounds.map Bound.entry)
        (clause.bounds.flatMap Bound.markup) := by
    apply Section.Writes.each
    intro bound hBound
    refine Bound.writes ?_ (hClause.2 bound hBound)
    intro tag child hTable
    cases tag <;> cases hTable <;> rfl
  exact .group hChild hInner (hType.append hBounds)
    (by simp) clause.forms

end TypeClause

namespace WhereClause

/- The child that a where clause is written as. -/
def entry : WhereClause → Entry
  | lifetime name bounds =>
      .child .lifetimeClause (.clause (.lifetime name bounds))
  | type clause => .child .typeClause (.clause (.type clause))
  | forAll lifetimes clause =>
      .child .forClause (.clause (.forAll lifetimes clause))

/- A lifetime and its bounds make a clause. -/
theorem forms_lifetimeClause
    (name : Token)
    {bounds : List Token}
    (hSome : bounds ≠ []) :
    Section.lifetimeClause.Forms
      ⟨Entry.each .lifetime .token [name]
        ++ Entry.each .lifetimeBound .token bounds⟩
      (.clause (.lifetime name bounds)) := by
  refine .lifetimeClause ?_ ?_ hSome
  · simp (disch := decide) [Draft.HasOne]
  · simp (disch := decide) [Draft.HasAll]

/- Lifetimes and a clause make a clause of their own. -/
theorem forms_forClause
    {lifetimes : List Token}
    (hSome : lifetimes ≠ [])
    (clause : TypeClause) :
    Section.forClause.Forms
      ⟨Entry.each .lifetime .token lifetimes
        ++ Entry.each .typeClause (.clause ∘ .type) [clause]⟩
      (.clause (.forAll lifetimes clause)) := by
  refine .forClause ?_ hSome ?_
  · simp (disch := decide) [Draft.HasAll]
  · simp (disch := decide) [Draft.HasOne]

/- A clause is written in a where section. -/
theorem writes
    {clause : WhereClause}
    (hClause : clause.WellFormed) :
    Section.clauses.Writes [clause.entry] clause.markup := by
  cases clause with
  | lifetime name bounds =>
      rcases hClause with ⟨hName, hBounds, hSome⟩
      have hFirst :
          Section.lifetimeClause.Writes
            (Entry.each .lifetime .token [name])
            (Tag.lifetime.enclose [name]) :=
        .leaf rfl rfl
          (Code.isContent_singleton hName (by decide))
          (.lifetime hName)
      have hRest :
          Section.lifetimeClause.Writes
            (Entry.each .lifetimeBound .token bounds)
            (Tag.lifetimeBound.encloseEach bounds) :=
        .lifetimes rfl rfl (fun _ => .lifetimeBound) hBounds
      exact .group rfl rfl (hFirst.append hRest) (by simp)
        (forms_lifetimeClause name hSome)
  | type clause => exact TypeClause.writes rfl rfl hClause
  | forAll lifetimes clause =>
      rcases hClause with ⟨hLifetimes, hSome, hClause⟩
      have hNames :
          Section.forClause.Writes
            (Entry.each .lifetime .token lifetimes)
            (Tag.lifetime.encloseEach lifetimes) :=
        .lifetimes rfl rfl (fun _ => .lifetime) hLifetimes
      have hType :
          Section.forClause.Writes
            (Entry.each .typeClause (.clause ∘ .type) [clause])
            (Tag.typeClause.enclose clause.markup) :=
        TypeClause.writes rfl rfl hClause
      exact .group rfl rfl (hNames.append hType) (by simp)
        (forms_forClause hSome clause)

/- The entries of clauses list the clauses. -/
theorem forms_clauses
    {clauses : List WhereClause}
    (hSome : clauses ≠ []) :
    Section.clauses.Forms ⟨clauses.map entry⟩
      (.clauses clauses) := by
  refine .clauses ?_ hSome
  rw [Draft.HasAll, Draft.values, List.filterMap_map,
    ← List.filterMap_eq_map]
  congr 1
  funext clause
  cases clause <;> rfl

/- Clauses are no marks. -/
theorem count_mark_entries
    (mark : Tag)
    (clauses : List WhereClause) :
    (clauses.map entry).count (.mark mark) = 0 := by
  rw [List.count_eq_zero]
  intro hMark
  rcases List.mem_map.mp hMark with ⟨clause, _, hEqual⟩
  cases clause <;> cases hEqual

/- A where section is written unless it is empty. -/
theorem writes_all
    {group : Section}
    {kind : Child}
    (hChild : group.child? .clauses = some kind)
    (hInner : kind.production = .ofSection .clauses)
    {clauses : List WhereClause}
    (hClauses : ∀ clause ∈ clauses, clause.WellFormed) :
    group.Writes
      (Entry.each .clauses .clauses
        (givenList clauses).toList)
      (markupAll clauses) := by
  apply Section.Writes.each
  intro given hGiven
  rcases eq_of_mem_givenList hGiven with ⟨rfl, hSome⟩
  have hWrites :
      Section.clauses.Writes (given.map entry)
        (given.flatMap markup) := by
    apply Section.Writes.each
    intro clause hClause
    exact writes (hClauses clause hClause)
  exact .group hChild hInner hWrites
    (by simp [count_mark_entries]) (forms_clauses hSome)

end WhereClause

------------------------------------------------------------
-- Associated Items
------------------------------------------------------------

namespace Draft

/- A single field is filled from what may be given. -/
theorem hasAtMostOne_iff
    {α : Type}
    {draft : Draft}
    {group : Section}
    {field : Field}
    {form : α → Fragment}
    {value : Option α} :
    draft.HasAtMostOne group field form value ↔
      draft.values group field = value.toList.map form := by
  rw [HasAtMostOne]
  cases value <;> rfl

end Draft

namespace Section.Writes

/- Code that may be given is written between tags. -/
theorem optional
    {group : Section}
    {tag : Tag}
    {kind : Child}
    {leaf : Leaf}
    {code : Option Code}
    (hChild : group.child? tag = some kind)
    (hLeaf : kind.production = .ofLeaf leaf)
    (hContent : ∀ given ∈ code, given.IsContent)
    (hHolds :
      ∀ given ∈ code, leaf.Holds given (.code given)) :
    group.Writes (Entry.each tag .code code.toList)
      (code.toList.flatMap tag.enclose) := by
  apply each
  intro given hGiven
  have hMember := Option.mem_toList.mp hGiven
  exact Writes.leaf hChild hLeaf (hContent given hMember)
    (hHolds given hMember)

/- The mark of something unsafe is written when it is set. -/
theorem unsafeMark
    {group : Section}
    (hMark : group.hasMark .unsafety)
    (isUnsafe : Bool) :
    group.Writes (Entry.unsafeMark isUnsafe)
      (unsafeMarkup isUnsafe) := by
  cases isUnsafe with
  | false => exact nil
  | true => exact mark hMark

end Section.Writes

namespace AssocType

/- The children of an associated type. -/
def entries
    (item : AssocType) :
    List Entry :=
  Entry.each .name .token [item.name]
    ++ Entry.each .bounds .generics
      (Generics.given ⟨item.params, item.bounds⟩).toList
    ++ Entry.each .clauses .clauses
      (givenList item.clauses).toList

/- The children of an associated type make it. -/
theorem forms
    (item : AssocType) :
    Section.assocType.Forms ⟨item.entries⟩
      (.assocType item) := by
  have hName :
      (⟨item.entries⟩ : Draft).HasOne .assocType .name .token
        item.name := by
    simp (disch := decide) [Draft.HasOne, entries]
  have hGenerics :
      (⟨item.entries⟩ : Draft).HasAtMostOne .assocType .bounds
        .generics
        (Generics.given ⟨item.params, item.bounds⟩) := by
    simp (disch := decide) [Draft.hasAtMostOne_iff, entries]
  have hClauses :
      (⟨item.entries⟩ : Draft).HasAtMostOne .assocType
        .clauses .clauses (givenList item.clauses) := by
    simp (disch := decide) [Draft.hasAtMostOne_iff, entries]
  exact .assocType hName hGenerics (by simp) (by simp)
    hClauses (by simp)

/- An associated type is written in a trait. -/
theorem writes
    {item : AssocType}
    (hItem : item.WellFormed) :
    Section.trait.Writes
      [.child .assocType (.assocType item)] item.markup := by
  rcases hItem with ⟨hName, hParams, hBounds, hClauses⟩
  have hFirst :
      Section.assocType.Writes
        (Entry.each .name .token [item.name])
        (Tag.name.enclose [item.name]) :=
    .name rfl rfl hName
  exact .group rfl rfl
    ((hFirst.append
      (Generics.writes_bounds rfl rfl
        ⟨hParams, hBounds⟩)).append
      (WhereClause.writes_all rfl rfl hClauses))
    (by simp) item.forms

end AssocType

namespace AssocConst

/- The children of an associated constant. -/
def entries
    (item : AssocConst) :
    List Entry :=
  Entry.each .name .token [item.name]
    ++ Entry.each .type .code [item.type]
    ++ Entry.each .defaultValue .code item.value.toList

/- The children of an associated constant make it. -/
theorem forms
    (item : AssocConst) :
    Section.assocConst.Forms ⟨item.entries⟩
      (.assocConst item) := by
  refine .assocConst ?_ ?_ ?_
  · simp (disch := decide) [Draft.HasOne, entries]
  · simp (disch := decide) [Draft.HasOne, entries]
  · simp (disch := decide) [Draft.hasAtMostOne_iff, entries]

/- An associated constant is written in a trait. -/
theorem writes
    {item : AssocConst}
    (hItem : item.WellFormed) :
    Section.trait.Writes
      [.child .assocConst (.assocConst item)]
      item.markup := by
  rcases hItem with ⟨hName, hType, hValue⟩
  have hFirst :
      Section.assocConst.Writes
        (Entry.each .name .token [item.name])
        (Tag.name.enclose [item.name]) :=
    .name rfl rfl hName
  have hSecond :
      Section.assocConst.Writes
        (Entry.each .type .code [item.type])
        (Tag.type.enclose item.type) :=
    .leaf rfl rfl hType.1 (.type hType.2)
  have hThird :
      Section.assocConst.Writes
        (Entry.each .defaultValue .code item.value.toList)
        (item.value.toList.flatMap
          Tag.defaultValue.enclose) :=
    .optional rfl rfl (fun code hCode => (hValue code hCode).1)
      (fun code hCode => .defaultValue (hValue code hCode).2)
  exact .group rfl rfl
    ((hFirst.append hSecond).append hThird) (by simp)
    item.forms

end AssocConst

namespace FnParam

/- A pattern and a type make an argument. -/
theorem forms_pattern
    (arg type : Code) :
    Section.param.Forms
      ⟨Entry.each .pat .code [arg]
        ++ Entry.each .type .code [type]⟩
      (.arg ⟨arg, type, true⟩) := by
  refine .param ?_ ?_ ?_
  · simp (disch := decide) [Draft.HasOne]
  · simp (disch := decide) [Draft.HasOne]
  · simp [Entry.each]

/- A name and a type make an argument. -/
theorem forms_name
    (name : Token)
    (type : Code) :
    Section.param.Forms
      ⟨Entry.each .name .token [name]
        ++ Entry.each .type .code [type]⟩
      (.arg ⟨[name], type, false⟩) := by
  refine .param rfl ?_ ?_
  · simp (disch := decide) [Draft.HasOne]
  · simp [Entry.each]

/- An argument is written in a list of arguments. -/
theorem writes
    {param : FnParam}
    (hParam : param.WellFormed) :
    Section.params.Writes [.child .param (.arg param)]
      param.markup := by
  rcases param with ⟨arg, type, isPattern⟩
  rcases hParam with ⟨hArg, hType, hName⟩
  have hRest :
      Section.param.Writes (Entry.each .type .code [type])
        (Tag.type.enclose type) :=
    .leaf rfl rfl hType.1 (.type hType.2)
  cases isPattern with
  | true =>
      have hFirst :
          Section.param.Writes (Entry.each .pat .code [arg])
            (Tag.pat.enclose arg) :=
        .leaf rfl rfl hArg.1 (.pat hArg.2)
      exact .group rfl rfl (hFirst.append hRest) (by simp)
        (forms_pattern arg type)
  | false =>
      have hIsName := hName rfl
      rcases arg with _ | ⟨name, _ | ⟨second, rest⟩⟩
      · cases hIsName
      · have hFirst :
            Section.param.Writes
              (Entry.each .name .token [name])
              (Tag.name.enclose [name]) :=
          .name rfl rfl hIsName
        exact .group rfl rfl (hFirst.append hRest) (by simp)
          (forms_name name type)
      · cases hIsName

/- Arguments make a list of arguments. -/
theorem forms_params
    (args : List FnParam) :
    Section.params.Forms ⟨Entry.each .param .arg args⟩
      (.args args) := by
  refine .params ?_
  simp (disch := decide) [Draft.HasAll]

/- Arguments are written unless there are none. -/
theorem writes_all
    {args : List FnParam}
    (hArgs : ∀ arg ∈ args, arg.WellFormed) :
    Section.assocFn.Writes
      (Entry.each .params .args (givenList args).toList)
      ((givenList args).toList.flatMap
        (fun args =>
          Tag.params.enclose (args.flatMap markup))) := by
  apply Section.Writes.each
  intro given hGiven
  rcases eq_of_mem_givenList hGiven with ⟨rfl, _⟩
  have hWrites :
      Section.params.Writes (Entry.each .param .arg given)
        (given.flatMap markup) := by
    apply Section.Writes.each
    intro arg hArg
    exact writes (hArgs arg hArg)
  exact .group rfl rfl hWrites (by simp) (forms_params given)

end FnParam

namespace AssocFn

/- The children of an associated function. -/
def entries
    (item : AssocFn) :
    List Entry :=
  Entry.each .name .token [item.name]
    ++ Entry.unsafeMark item.qualifiers.isUnsafe
    ++ Entry.each .abi .token item.qualifiers.abi.toList
    ++ Entry.each .gparams .generics
      (Generics.given ⟨item.params, []⟩).toList
    ++ Entry.each .params .args (givenList item.args).toList
    ++ Entry.each .ret .code item.ret.toList
    ++ Entry.each .clauses .clauses
      (givenList item.clauses).toList
    ++ Entry.each .rust .code item.body.toList

/- The children of an associated function make it. -/
theorem forms
    (item : AssocFn) :
    Section.assocFn.Forms ⟨item.entries⟩ (.assocFn item) := by
  have hName :
      (⟨item.entries⟩ : Draft).HasOne .assocFn .name .token
        item.name := by
    simp (disch := decide) [Draft.HasOne, entries]
  have hUnsafe :
      item.qualifiers.isUnsafe = true ↔
        Entry.mark .unsafety ∈ item.entries := by
    simp [entries]
  have hAbi :
      (⟨item.entries⟩ : Draft).HasAtMostOne .assocFn .abi
        .token item.qualifiers.abi := by
    simp (disch := decide) [Draft.hasAtMostOne_iff, entries]
  have hGenerics :
      (⟨item.entries⟩ : Draft).HasAtMostOne .assocFn .gparams
        .generics (Generics.given ⟨item.params, []⟩) := by
    simp (disch := decide) [Draft.hasAtMostOne_iff, entries]
  have hArgs :
      (⟨item.entries⟩ : Draft).HasAtMostOne .assocFn .params
        .args (givenList item.args) := by
    simp (disch := decide) [Draft.hasAtMostOne_iff, entries]
  have hRet :
      (⟨item.entries⟩ : Draft).HasAtMostOne .assocFn .ret
        .code item.ret := by
    simp (disch := decide) [Draft.hasAtMostOne_iff, entries]
  have hClauses :
      (⟨item.entries⟩ : Draft).HasAtMostOne .assocFn .clauses
        .clauses (givenList item.clauses) := by
    simp (disch := decide) [Draft.hasAtMostOne_iff, entries]
  have hBody :
      (⟨item.entries⟩ : Draft).HasAtMostOne .assocFn .body
        .code item.body := by
    simp (disch := decide) [Draft.hasAtMostOne_iff, entries]
  exact .assocFn hName hUnsafe hAbi hGenerics (by simp) hArgs
    (by simp) hRet hClauses (by simp) hBody

/- An associated function sets its mark at most once. -/
theorem count_mark_entries
    (item : AssocFn)
    (mark : Tag) :
    item.entries.count (.mark mark) ≤ 1 := by
  simpa [entries, List.count_append] using
    Entry.count_unsafeMark mark item.qualifiers.isUnsafe

/- An associated function is written in a trait. -/
theorem writes
    {item : AssocFn}
    (hItem : item.WellFormed) :
    Section.trait.Writes [.child .assocFn (.assocFn item)]
      item.markup := by
  have hName :
      Section.assocFn.Writes
        (Entry.each .name .token [item.name])
        (Tag.name.enclose [item.name]) :=
    .name rfl rfl hItem.name
  have hUnsafe :
      Section.assocFn.Writes
        (Entry.unsafeMark item.qualifiers.isUnsafe)
        (unsafeMarkup item.qualifiers.isUnsafe) :=
    .unsafeMark rfl _
  have hAbi :
      Section.assocFn.Writes
        (Entry.each .abi .token item.qualifiers.abi.toList)
        (Tag.abi.encloseEach item.qualifiers.abi.toList) := by
    apply Section.Writes.each
    intro token hToken
    have hKind :=
      hItem.abi token (Option.mem_toList.mp hToken)
    exact .leaf rfl rfl
      (Code.isContent_singleton hKind (by decide)) (.abi hKind)
  have hRet :
      Section.assocFn.Writes
        (Entry.each .ret .code item.ret.toList)
        (item.ret.toList.flatMap Tag.ret.enclose) :=
    .optional rfl rfl
      (fun code hCode => (hItem.ret code hCode).1)
      (fun code hCode => .ret (hItem.ret code hCode).2)
  have hBody :
      Section.assocFn.Writes
        (Entry.each .rust .code item.body.toList)
        (item.body.toList.flatMap Tag.rust.enclose) :=
    .optional rfl rfl hItem.body (fun _ _ => .rust)
  exact .group rfl rfl
    (((((((hName.append hUnsafe).append hAbi).append
      (Generics.writes_gparams hItem.params)).append
      (FnParam.writes_all hItem.args)).append hRet).append
      (WhereClause.writes_all rfl rfl hItem.clauses)).append
      hBody)
    item.count_mark_entries item.forms

end AssocFn

------------------------------------------------------------
-- Trait Declarations
------------------------------------------------------------

namespace TraitDecl

/- The children of a trait. -/
def entries
    (decl : TraitDecl) :
    List Entry :=
  Entry.each .name .token [decl.name]
    ++ Entry.each .vis .code decl.vis.toList
    ++ Entry.unsafeMark decl.isUnsafe
    ++ Entry.each .bounds .generics
      (Generics.given
        ⟨decl.params, decl.requirements⟩).toList
    ++ Entry.each .clauses .clauses
      (givenList decl.clauses).toList
    ++ Entry.each .assocType .assocType decl.types
    ++ Entry.each .assocConst .assocConst decl.consts
    ++ Entry.each .assocFn .assocFn decl.fns

/- The children of a trait make it. -/
theorem forms
    (decl : TraitDecl) :
    Section.trait.Forms ⟨decl.entries⟩ (.trait decl) := by
  have hName :
      (⟨decl.entries⟩ : Draft).HasOne .trait .name .token
        decl.name := by
    simp (disch := decide) [Draft.HasOne, entries]
  have hVis :
      (⟨decl.entries⟩ : Draft).HasAtMostOne .trait .vis .code
        decl.vis := by
    simp (disch := decide) [Draft.hasAtMostOne_iff, entries]
  have hUnsafe :
      decl.isUnsafe = true ↔
        Entry.mark .unsafety ∈ decl.entries := by
    simp [entries]
  have hGenerics :
      (⟨decl.entries⟩ : Draft).HasAtMostOne .trait .bounds
        .generics
        (Generics.given
          ⟨decl.params, decl.requirements⟩) := by
    simp (disch := decide) [Draft.hasAtMostOne_iff, entries]
  have hClauses :
      (⟨decl.entries⟩ : Draft).HasAtMostOne .trait .clauses
        .clauses (givenList decl.clauses) := by
    simp (disch := decide) [Draft.hasAtMostOne_iff, entries]
  have hTypes :
      (⟨decl.entries⟩ : Draft).HasAll .trait .types .assocType
        decl.types := by
    simp (disch := decide) [Draft.HasAll, entries]
  have hConsts :
      (⟨decl.entries⟩ : Draft).HasAll .trait .consts
        .assocConst decl.consts := by
    simp (disch := decide) [Draft.HasAll, entries]
  have hFns :
      (⟨decl.entries⟩ : Draft).HasAll .trait .fns .assocFn
        decl.fns := by
    simp (disch := decide) [Draft.HasAll, entries]
  exact .trait hName hVis hUnsafe hGenerics (by simp)
    (by simp) hClauses (by simp) hTypes hConsts hFns

/- A trait sets its mark at most once. -/
theorem count_mark_entries
    (decl : TraitDecl)
    (mark : Tag) :
    decl.entries.count (.mark mark) ≤ 1 := by
  simpa [entries, List.count_append] using
    Entry.count_unsafeMark mark decl.isUnsafe

/- A well-formed declaration derives from what is written. -/
theorem derivedFrom_markup
    {decl : TraitDecl}
    (hDecl : decl.WellFormed) :
    decl.DerivedFrom decl.markup := by
  have hName :
      Section.trait.Writes
        (Entry.each .name .token [decl.name])
        (Tag.name.enclose [decl.name]) :=
    .name rfl rfl hDecl.name
  have hVis :
      Section.trait.Writes
        (Entry.each .vis .code decl.vis.toList)
        (decl.vis.toList.flatMap Tag.vis.enclose) :=
    .optional rfl rfl
      (fun code hCode => (hDecl.vis code hCode).1)
      (fun code hCode => .vis (hDecl.vis code hCode).2)
  have hUnsafe :
      Section.trait.Writes (Entry.unsafeMark decl.isUnsafe)
        (unsafeMarkup decl.isUnsafe) :=
    .unsafeMark rfl _
  have hTypes :
      Section.trait.Writes
        (Entry.each .assocType .assocType decl.types)
        (decl.types.flatMap AssocType.markup) :=
    .each fun item hItem =>
      AssocType.writes (hDecl.types item hItem)
  have hConsts :
      Section.trait.Writes
        (Entry.each .assocConst .assocConst decl.consts)
        (decl.consts.flatMap AssocConst.markup) :=
    .each fun item hItem =>
      AssocConst.writes (hDecl.consts item hItem)
  have hFns :
      Section.trait.Writes
        (Entry.each .assocFn .assocFn decl.fns)
        (decl.fns.flatMap AssocFn.markup) :=
    .each fun item hItem =>
      AssocFn.writes (hDecl.fns item hItem)
  have hGenerics :
      Generics.WellFormed ⟨decl.params, decl.requirements⟩ :=
    ⟨hDecl.params, hDecl.requirements⟩
  have hBounds :
      Section.trait.Writes _ _ :=
    Generics.writes_bounds rfl rfl hGenerics
  have hClauses :
      Section.trait.Writes _ _ :=
    WhereClause.writes_all rfl rfl hDecl.clauses
  have hWrites :=
    ((((((hName.append hVis).append hUnsafe).append
      hBounds).append hClauses).append hTypes).append
      hConsts).append hFns
  rcases hWrites with ⟨pieces, hFits, hEntries, hTokens⟩
  have hDraft : Draft.ofPieces pieces = ⟨decl.entries⟩ := by
    rw [Draft.ofPieces, hEntries]
    rfl
  have hOnce :=
    Section.setsOnce_of_forms decl.forms
      decl.count_mark_entries
  have hForms := decl.forms
  rw [← hDraft] at hOnce hForms
  have hDerives :=
    Production.derives_of_fits hFits hOnce hForms
      Tag.trait.closes_closing
  rw [hTokens] at hDerives
  exact ⟨Tag.trait.opening, _, rfl, Tag.trait.opens_opening,
    hDerives⟩

/-
  The declarations that can be read are the well-formed ones,
  and each of them is read back from its own markup.
-/
theorem ofTokens_image :
    (∀ (tokens : List Token) (decl : TraitDecl),
      ofTokens tokens = .ok decl → decl.WellFormed) ∧
    (∀ decl : TraitDecl,
      decl.WellFormed → ofTokens decl.markup = .ok decl) := by
  constructor
  · intro tokens decl hTokens
    exact wellFormed_of_ofTokens hTokens
  · intro decl hDecl
    exact ofTokens_of_derivedFrom (derivedFrom_markup hDecl)

/-
  A trait with a relaxed bound, a clause under a lifetime of its
  own, and a function that has a pattern and an empty body.
-/
theorem ofTokens_image_visit :
    let word : String → Token := fun text =>
      { kind := .ident, text := text }
    let life : Token := { kind := .lifetime, text := "'a" }
    let decl : TraitDecl :=
      { name := word "Visit"
        vis := some [word "pub"]
        isUnsafe := true
        params :=
          [.lifetime life [],
            .type (word "T")
              [.trait
                { path := [word "Sized"], relaxed := true }]]
        clauses :=
          [.forAll [life]
            { type := [word "T"], bounds := [.lifetime life] }]
        fns :=
          [{ name := word "visit"
             args :=
              [{ arg := [word "mut", word "node"]
                 type := [word "T"]
                 isPattern := true }]
             body := some [] }] }
    decl.WellFormed ∧ ofTokens decl.markup = .ok decl := by
  intro word life decl
  have hRead : ofTokens decl.markup = .ok decl :=
    ofTokens_image.2 decl (by decide)
  exact ⟨ofTokens_image.1 decl.markup decl hRead, hRead⟩

end TraitDecl

end TraitMarkup
