import TraitMarkup.Parse
import TraitMarkup.Proofs.Closing
import TraitMarkup.Proofs.Descent

/-
  The reader accepts exactly the grammar.

  A section that is read piece by piece holds, at every place,
  a draft of the pieces before that place. The draft has each
  child in the shape of its production and each single field at
  most once, so what closes it is what the grammar forms.

  Key definitions include:
    * `Piece.Fits`
    * `Production.Reads`
    * `Cursor.Covers`

  Main declarations:
    * `Production.reads_of_derives`
    * `Production.derives_of_parse`
    * `TraitDecl.ofTokens_eq_ok_iff`
-/

namespace TraitMarkup

------------------------------------------------------------
-- What A Token Means
------------------------------------------------------------

namespace Section

/- A token closes a section by its own closing tag. -/
theorem read_eq_close_iff
    {group : Section}
    {token : Token} :
    group.read token = .close ↔
      token.closes group.closeTag.text := by
  unfold read
  split
  · rename_i hCloses
    simp [hCloses]
  · rename_i hCloses
    simp only [hCloses]
    split
    · split <;> simp
    · split <;> simp
    · simp

/- A token opens the child that the table has for its tag. -/
theorem read_eq_opening_iff
    {group : Section}
    {token : Token}
    {tag : Tag}
    {child : Child} :
    group.read token = .opening tag child ↔
      token.opens tag.text ∧
        group.child? tag = some child := by
  constructor
  · intro hRead
    refine ⟨?_, child?_of_read hRead⟩
    unfold read at hRead
    split at hRead
    · cases hRead
    · split at hRead
      · rename_i hKind hTag
        split at hRead
        · cases hRead
        · cases hRead
          rcases Option.bind_eq_some_iff.mp hTag with
            ⟨name, hName, hFound⟩
          simp [Token.opens, hKind, hName,
            Tag.text_of_ofText? hFound]
      · split at hRead <;> cases hRead
      · cases hRead
  · rintro ⟨hOpens, hChild⟩
    simp only [Token.opens, Bool.and_eq_true,
      decide_eq_true_eq] at hOpens
    simp [read, Token.closes, hOpens.1, hOpens.2,
      Tag.ofText?_text, hChild]

/- A token sets a mark that the section has. -/
theorem read_eq_mark_iff
    {group : Section}
    {token : Token}
    {tag : Tag} :
    group.read token = .mark tag ↔
      token.marks tag.text ∧ group.hasMark tag := by
  constructor
  · intro hRead
    unfold read at hRead
    split at hRead
    · cases hRead
    · split at hRead
      · split at hRead <;> cases hRead
      · rename_i hKind hTag
        split at hRead
        · rename_i hMark
          cases hRead
          rcases Option.bind_eq_some_iff.mp hTag with
            ⟨name, hName, hFound⟩
          simp [Token.marks, hKind, hName, hMark,
            Tag.text_of_ofText? hFound]
        · cases hRead
      · cases hRead
  · rintro ⟨hMarks, hMark⟩
    simp only [Token.marks, Bool.and_eq_true,
      decide_eq_true_eq] at hMarks
    simp [read, Token.closes, hMarks.1, hMarks.2,
      Tag.ofText?_text, hMark]

end Section

------------------------------------------------------------
-- Pieces In Their Section
------------------------------------------------------------

namespace Piece

/- The piece is complete and has a place in the section. -/
inductive Fits
    (group : Section) :
    Piece → Prop
  | child
      {opener : Token}
      {inside : List Token}
      {tag : Tag}
      {fragment : Fragment}
      {child : Child}
      (hOpens : opener.opens tag.text)
      (hChild : group.child? tag = some child)
      (hDerives :
        child.production.Derives inside fragment) :
      Fits group (.child opener inside tag fragment)
  | mark
      {token : Token}
      {tag : Tag}
      (hMarks : token.marks tag.text)
      (hMark : group.hasMark tag) :
      Fits group (.mark token tag)

/- The first token of a piece that fits is known. -/
theorem Fits.startsIn
    {group : Section}
    {piece : Piece}
    (hFits : piece.Fits group) :
    piece.StartsIn group := by
  cases hFits with
  | child hOpens hChild _ =>
      exact ⟨hOpens, by rw [hChild]; rfl⟩
  | mark hMarks hMark => exact ⟨hMarks, hMark⟩

/- The inside of a child that fits derives from its kind. -/
theorem Fits.derives
    {group : Section}
    {opener : Token}
    {inside : List Token}
    {tag : Tag}
    {fragment : Fragment}
    (hFits :
      (Piece.child opener inside tag fragment).Fits group)
    {child : Child}
    (hChild : group.child? tag = some child) :
    child.production.Derives inside fragment := by
  cases hFits with
  | child _ hOther hDerives =>
      cases hChild.symm.trans hOther
      exact hDerives

end Piece

namespace Production

/- A derivation stands for a fragment of its own shape. -/
theorem yields_of_derives
    {production : Production}
    {tokens : List Token}
    {fragment : Fragment}
    (hDerives : production.Derives tokens fragment) :
    production.yields fragment := by
  cases hDerives with
  | leaf _ hHolds _ => exact Leaf.yields_of_holds hHolds
  | group _ _ _ hForms _ => exact Section.yields_of_forms hForms

/- Pieces that fit their section derive it. -/
theorem derives_of_fits
    {group : Section}
    {pieces : List Piece}
    {close : Token}
    {fragment : Fragment}
    (hFits : ∀ piece ∈ pieces, piece.Fits group)
    (hOnce : group.SetsOnce (.ofPieces pieces))
    (hForms : group.Forms (.ofPieces pieces) fragment)
    (hClose : close.closes group.closeTag.text) :
    (ofSection group).Derives
      (pieces.flatMap Piece.tokens ++ [close]) fragment := by
  refine .group ?_ ?_ hOnce hForms hClose
  · intro piece hPiece
    exact (hFits piece hPiece).startsIn
  · intro opener inside tag fragment child hPiece hChild
    exact (hFits _ hPiece).derives hChild

/- A section that derives is made of pieces that fit. -/
theorem exists_fits_of_derives
    {group : Section}
    {tokens : List Token}
    {fragment : Fragment}
    (hDerives : (ofSection group).Derives tokens fragment) :
    ∃ pieces close,
      tokens = pieces.flatMap Piece.tokens ++ [close] ∧
        (∀ piece ∈ pieces, piece.Fits group) ∧
        group.SetsOnce (.ofPieces pieces) ∧
        group.Forms (.ofPieces pieces) fragment ∧
        close.closes group.closeTag.text := by
  cases hDerives with
  | @group _ pieces close _ hStarts hInside hOnce hForms
      hClose =>
      refine ⟨pieces, close, rfl, ?_, hOnce, hForms, hClose⟩
      intro piece hPiece
      have hStart := hStarts piece hPiece
      cases piece with
      | mark token tag => exact .mark hStart.1 hStart.2
      | child opener inside tag fragment =>
          rcases Option.isSome_iff_exists.mp hStart.2 with
            ⟨child, hChild⟩
          exact .child hStart.1 hChild
            (hInside opener inside tag fragment child hPiece
              hChild)

end Production

namespace Section

/- The draft of pieces that fit has children of their shapes. -/
theorem isTyped_ofPieces
    {group : Section}
    {pieces : List Piece}
    (hFits : ∀ piece ∈ pieces, piece.Fits group) :
    group.IsTyped (.ofPieces pieces) := by
  intro tag fragment hEntry
  rcases List.mem_map.mp hEntry with ⟨piece, hPiece, hEqual⟩
  cases hFits piece hPiece with
  | child _ hChild hDerives =>
      cases hEqual
      exact ⟨_, hChild, Production.yields_of_derives hDerives⟩
  | mark _ _ => cases hEqual

end Section

------------------------------------------------------------
-- Fields That Are Still Free
------------------------------------------------------------

namespace Draft

/- One more entry puts its value behind the others. -/
theorem values_add
    (draft : Draft)
    (entry : Entry)
    (group : Section)
    (field : Field) :
    (draft.add entry).values group field =
      draft.values group field ++
        (entry.value? group field).toList := by
  cases hValue : entry.value? group field <;>
    simp [values, add, hValue]

/- A draft of pieces takes in one more piece. -/
theorem ofPieces_concat
    (pieces : List Piece)
    {piece : Piece}
    {entry : Entry}
    (hEntry : piece.entry = entry) :
    ofPieces (pieces ++ [piece]) =
      (ofPieces pieces).add entry := by
  simp [ofPieces, add, hEntry]

end Draft

namespace Section

/- A child is never taken in as nothing. -/
theorem some?_adapt
    {group : Section}
    {tag : Tag}
    {child : Child}
    {fragment : Fragment}
    (hChild : group.child? tag = some child)
    (hYields : child.production.yields fragment) :
    (child.adapt fragment).some? =
      some (child.adapt fragment) := by
  cases group <;> cases tag <;> cases hChild <;>
    cases fragment <;>
      first
      | rfl
      | cases hYields

/- A value of a typed draft is present, be it empty or not. -/
theorem IsTyped.some?_eq
    {group : Section}
    {draft : Draft}
    (hTyped : group.IsTyped draft)
    {field : Field}
    {value : Fragment}
    (hValue : value ∈ draft.values group field) :
    value.some? = some value := by
  rcases List.mem_filterMap.mp hValue with
    ⟨entry, hEntry, hGiven⟩
  cases entry with
  | mark tag => cases hGiven
  | child tag fragment =>
      rcases hTyped tag fragment hEntry with
        ⟨child, hChild, hYields⟩
      simp only [Entry.value?, hChild] at hGiven
      split at hGiven
      · cases hGiven
        exact some?_adapt hChild hYields
      · cases hGiven

/- A field of a typed draft without a value is empty. -/
theorem IsTyped.values_eq_nil
    {group : Section}
    {draft : Draft}
    (hTyped : group.IsTyped draft)
    {field : Field}
    (hFree : draft.value? group field = none) :
    draft.values group field = [] := by
  rw [Draft.value?] at hFree
  cases hLast : (draft.values group field).getLast? with
  | none => exact List.getLast?_eq_none_iff.mp hLast
  | some value =>
      have hSome :=
        hTyped.some?_eq (List.mem_of_getLast? hLast)
      rw [hLast, Option.bind_some, hSome] at hFree
      cases hFree

/- Whether a field takes many children is up to the field. -/
theorem lookup_fields
    {group : Section}
    {tag : Tag}
    {child : Child}
    (hChild : group.child? tag = some child) :
    group.fields.lookup child.field =
      some (if child.repeated then .repeated else .once) := by
  cases group <;> cases tag <;> cases hChild <;> rfl

/- A child that may be taken in keeps single fields single. -/
theorem SetsOnce.add_child
    {group : Section}
    {draft : Draft}
    (hOnce : group.SetsOnce draft)
    (hTyped : group.IsTyped draft)
    {tag : Tag}
    {child : Child}
    (hChild : group.child? tag = some child)
    (hFree : group.prior? draft child = none)
    (fragment : Fragment) :
    group.SetsOnce (draft.add (.child tag fragment)) := by
  constructor
  · intro other kind hKind hSingle
    rw [Draft.values_add]
    by_cases hField : child.field = kind.field
    · have hChildSingle : child.repeated = false := by
        have hLookup := lookup_fields hChild
        rw [hField, lookup_fields hKind, hSingle] at hLookup
        by_contra hRepeated
        simp [hRepeated] at hLookup
      have hEmpty : draft.values group kind.field = [] := by
        apply hTyped.values_eq_nil
        rw [← hField]
        simpa [prior?, hChildSingle] using hFree
      rw [hEmpty]
      simp [Entry.value?, hChild, hField]
    · simpa [Entry.value?, hChild, hField] using
        hOnce.1 other kind hKind hSingle
  · intro mark
    simpa [Draft.add, List.count_append] using hOnce.2 mark

/- A mark that is not set yet may be set. -/
theorem SetsOnce.add_mark
    {group : Section}
    {draft : Draft}
    (hOnce : group.SetsOnce draft)
    {tag : Tag}
    (hFree : draft.marked tag = false) :
    group.SetsOnce (draft.add (.mark tag)) := by
  constructor
  · intro other kind hKind hSingle
    rw [Draft.values_add]
    simpa [Entry.value?] using hOnce.1 other kind hKind hSingle
  · intro mark
    have hAbsent : Entry.mark tag ∉ draft.entries := by
      rw [← Draft.marked_iff, hFree]
      exact Bool.false_ne_true
    have hCount := hOnce.2 mark
    rw [Draft.add, List.count_append, List.count_singleton]
    by_cases hSame : tag = mark
    · subst hSame
      simp [List.count_eq_zero.mpr hAbsent]
    · simpa [hSame] using hCount

/- Before a child of a whole draft its field is free. -/
theorem SetsOnce.prior?_eq_none
    {group : Section}
    {done later : List Piece}
    {opener : Token}
    {inside : List Token}
    {tag : Tag}
    {child : Child}
    {fragment : Fragment}
    (hChild : group.child? tag = some child)
    (hOnce :
      group.SetsOnce
        (.ofPieces
          (done ++
            .child opener inside tag fragment :: later))) :
    group.prior? (.ofPieces done) child = none := by
  unfold prior?
  split
  · rfl
  · rename_i hSingle
    have hLength :=
      hOnce.1 tag child hChild (by simpa using hSingle)
    have hEmpty :
        (Draft.ofPieces done).values group child.field =
          [] := by
      apply List.eq_nil_of_length_eq_zero
      simp only [Draft.values, Draft.ofPieces,
        List.map_append, List.map_cons, Piece.entry,
        List.filterMap_append, List.filterMap_cons,
        Entry.value?, hChild, if_true, List.length_append,
        List.length_cons] at hLength ⊢
      omega
    simp [Draft.value?, hEmpty]

/- Before a mark of a whole draft it is not set. -/
theorem SetsOnce.marked_eq_false
    {group : Section}
    {done later : List Piece}
    {token : Token}
    {tag : Tag}
    (hOnce :
      group.SetsOnce
        (.ofPieces (done ++ .mark token tag :: later))) :
    (Draft.ofPieces done).marked tag = false := by
  have hCount := hOnce.2 tag
  simp only [Draft.ofPieces, List.map_append, List.map_cons,
    Piece.entry, List.count_append, List.count_cons_self]
    at hCount
  rw [Bool.eq_false_iff, Ne, Draft.marked_iff]
  intro hMarked
  have hPositive := List.count_pos_iff.mpr hMarked
  rw [Draft.ofPieces] at hPositive
  dsimp only at hPositive
  omega

end Section

------------------------------------------------------------
-- Everything Derived Is Read
------------------------------------------------------------

/-
  The production reads these tokens, wherever they stand, and
  stops behind them.
-/
def Production.Reads
    (production : Production)
    (tokens : List Token)
    (fragment : Fragment) : Prop :=
  ∀ path before later,
    production.parse path ⟨before, tokens ++ later⟩ =
      .ok (fragment, ⟨tokens.reverse ++ before, later⟩)

namespace Leaf

/- The loop takes in the content of a leaf. -/
theorem parse_content
    (leaf : Leaf)
    (path : List String)
    {code : Code}
    (hContent : code.IsContent)
    (done : Code)
    (before later : List Token) :
    leaf.parse path done before (code ++ later) =
      leaf.parse path (done ++ code)
        (code.reverse ++ before) later := by
  induction code generalizing done before with
  | nil => simp
  | cons token code ih =>
      rcases hContent token List.mem_cons_self with
        ⟨hNotClose, hNotEmpty⟩
      have hCloses :
          token.closes leaf.closeTag.text = false := by
        simp [Token.closes, hNotClose]
      have hIsContent : token.isContent = true := by
        simp [Token.isContent, hNotClose, hNotEmpty]
      have hRest : Code.IsContent code :=
        fun other hOther =>
          hContent other (List.mem_cons_of_mem token hOther)
      rw [List.cons_append, parse_cons, hCloses, hIsContent]
      simp [ih hRest]

/- A leaf reads what it holds, up to its closing tag. -/
theorem reads_of_holds
    {leaf : Leaf}
    {code : Code}
    {close : Token}
    {fragment : Fragment}
    (hContent : code.IsContent)
    (hHolds : leaf.Holds code fragment)
    (hClose : close.closes leaf.closeTag.text) :
    (Production.ofLeaf leaf).Reads (code ++ [close])
      fragment := by
  intro path before later
  rw [Production.parse_ofLeaf]
  dsimp only
  rw [List.append_assoc, parse_content leaf path hContent,
    List.singleton_append, parse_cons, hClose,
    List.nil_append, build_eq_ok_iff.mpr hHolds]
  simp

end Leaf

namespace Section

/-
  The loop takes in piece after piece. The single fields are
  free because the whole list of pieces sets each of them once.
-/
theorem parse_pieces
    {group : Section}
    {pieces done : List Piece}
    (hStarts : ∀ piece ∈ pieces, piece.StartsIn group)
    (hReads :
      ∀ opener inside tag fragment child,
        Piece.child opener inside tag fragment ∈ pieces →
          group.child? tag = some child →
            child.production.Reads inside fragment)
    (hOnce : group.SetsOnce (.ofPieces (done ++ pieces)))
    (path : List String)
    (before later : List Token) :
    group.parse path (.ofPieces done) before
        (pieces.flatMap Piece.tokens ++ later) =
      group.parse path (.ofPieces (done ++ pieces))
        ((pieces.flatMap Piece.tokens).reverse ++ before)
        later := by
  induction pieces generalizing done before with
  | nil => simp
  | cons piece pieces ih =>
      have hMore :
          group.SetsOnce
            (.ofPieces (done ++ [piece] ++ pieces)) := by
        simpa using hOnce
      have hNext :=
        ih (fun other hOther =>
            hStarts other (List.mem_cons_of_mem piece hOther))
          (fun opener inside tag fragment child hOther =>
            hReads opener inside tag fragment child
              (List.mem_cons_of_mem piece hOther))
          hMore
      have hStart := hStarts piece List.mem_cons_self
      cases piece with
      | child opener inside tag fragment =>
          rcases hStart with ⟨hOpens, hSome⟩
          rcases Option.isSome_iff_exists.mp hSome with
            ⟨child, hChild⟩
          have hInside :=
            hReads opener inside tag fragment child
              List.mem_cons_self hChild
          simp only [List.flatMap_cons, Piece.tokens,
            List.cons_append, List.append_assoc]
          rw [parse_cons,
            read_eq_opening_iff.mpr ⟨hOpens, hChild⟩]
          simp only [SetsOnce.prior?_eq_none hChild hOnce,
            hInside (group.id :: path) (opener :: before),
            Except.bind]
          have hDraft :
              Draft.ofPieces
                  (done ++
                    [.child opener inside tag fragment]) =
                (Draft.ofPieces done).add
                  (.child tag fragment) :=
            Draft.ofPieces_concat done rfl
          rw [← hDraft, hNext]
          simp
      | mark token tag =>
          rcases hStart with ⟨hMarks, hMark⟩
          simp only [List.flatMap_cons, Piece.tokens,
            List.cons_append, List.nil_append]
          rw [parse_cons,
            read_eq_mark_iff.mpr ⟨hMarks, hMark⟩]
          simp only [SetsOnce.marked_eq_false hOnce]
          have hDraft :
              Draft.ofPieces (done ++ [.mark token tag]) =
                (Draft.ofPieces done).add (.mark tag) :=
            Draft.ofPieces_concat done rfl
          rw [← hDraft]
          simpa using hNext (token :: before)

end Section

/- A production reads whatever derives from it. -/
theorem Production.reads_of_derives
    {production : Production}
    {tokens : List Token}
    {fragment : Fragment}
    (hDerives : production.Derives tokens fragment) :
    production.Reads tokens fragment := by
  induction hDerives with
  | leaf hContent hHolds hClose =>
      exact Leaf.reads_of_holds hContent hHolds hClose
  | @group group pieces close fragment hStarts hInside hOnce
      hForms hClose ih =>
      intro path before later
      rw [parse_ofSection]
      dsimp only
      have hAll :
          group.SetsOnce (.ofPieces ([] ++ pieces)) := by
        simpa using hOnce
      have hPieces :=
        Section.parse_pieces hStarts ih hAll path before
          (close :: later)
      rw [Draft.ofPieces, List.map_nil, ← Draft.empty,
        List.nil_append] at hPieces
      rw [List.append_assoc, List.singleton_append, hPieces,
        Section.parse_cons,
        Section.read_eq_close_iff.mpr hClose]
      simp [Section.close_of_forms hForms, Except.map]

------------------------------------------------------------
-- Everything Read Is Derived
------------------------------------------------------------

/-
  Reading went over these tokens: they lie between the place it
  started at and the place it came to.
-/
structure Cursor.Covers
    (before rest : List Token)
    (tokens : List Token)
    (cursor : Cursor) : Prop where
  rest : rest = tokens ++ cursor.rest
  before : cursor.before = tokens.reverse ++ before

namespace Cursor.Covers

variable {before rest tokens : List Token}
variable {cursor : Cursor}

/- A token and what follows it. -/
theorem cons
    {token : Token}
    (hCovers :
      Cursor.Covers (token :: before) rest tokens cursor) :
    Cursor.Covers before (token :: rest) (token :: tokens)
      cursor where
  rest := by rw [hCovers.rest, List.cons_append]
  before := by simp [hCovers.before]

/- What is read from one place to the next, and from there. -/
theorem trans
    {more : List Token}
    {later : Cursor}
    (hFirst : Cursor.Covers before rest tokens cursor)
    (hSecond :
      Cursor.Covers cursor.before cursor.rest more later) :
    Cursor.Covers before rest (tokens ++ more) later where
  rest := by
    rw [hFirst.rest, hSecond.rest, List.append_assoc]
  before := by simp [hSecond.before, hFirst.before]

end Cursor.Covers

namespace Leaf

/-
  A leaf that is read derives. The induction is on the tokens
  that are left; the code read so far is content.
-/
theorem derives_of_parse
    {leaf : Leaf}
    {path : List String}
    {code : Code}
    {before rest : List Token}
    {fragment : Fragment}
    {cursor : Cursor}
    (hContent : code.IsContent)
    (hParse :
      leaf.parse path code before rest =
        .ok (fragment, cursor)) :
    ∃ tokens,
      Cursor.Covers before rest tokens cursor ∧
        (Production.ofLeaf leaf).Derives (code ++ tokens)
          fragment := by
  induction rest generalizing code before with
  | nil => cases hParse
  | cons token rest ih =>
      rw [parse_cons] at hParse
      split at hParse
      · rename_i hClose
        split at hParse
        · cases hParse
        · rename_i hBuild
          cases hParse
          exact ⟨[token], ⟨rfl, rfl⟩,
            .leaf hContent (build_eq_ok_iff.mp hBuild) hClose⟩
      · split at hParse
        · rename_i hToken
          have hMore : Code.IsContent (code ++ [token]) := by
            intro other hOther
            rcases List.mem_append.mp hOther with hOld | hNew
            · exact hContent other hOld
            · rw [List.mem_singleton.mp hNew]
              simpa [Token.isContent] using hToken
          rcases ih hMore hParse with
            ⟨tokens, hCovers, hDerives⟩
          exact ⟨token :: tokens, hCovers.cons, by
            simpa using hDerives⟩
        · cases hParse

end Leaf

/- A piece that fits goes behind pieces that fit. -/
theorem Piece.fits_concat
    {group : Section}
    {pieces : List Piece}
    {piece : Piece}
    (hFits : ∀ other ∈ pieces, other.Fits group)
    (hPiece : piece.Fits group) :
    ∀ other ∈ pieces ++ [piece], other.Fits group := by
  intro other hOther
  rcases List.mem_append.mp hOther with hOld | hNew
  · exact hFits other hOld
  · rw [List.mem_singleton.mp hNew]
    exact hPiece

/-
  A production that is read derives, when the sections that are
  read from the same place do.
-/
theorem Production.derives_of_sections
    {production : Production}
    {path : List String}
    {before rest : List Token}
    {fragment : Fragment}
    {cursor : Cursor}
    (hSections :
      ∀ group : Section,
        group.parse path .empty before rest =
            .ok (fragment, cursor) →
          ∃ tokens,
            Cursor.Covers before rest tokens cursor ∧
              (ofSection group).Derives tokens fragment)
    (hParse :
      production.parse path ⟨before, rest⟩ =
        .ok (fragment, cursor)) :
    ∃ tokens,
      Cursor.Covers before rest tokens cursor ∧
        production.Derives tokens fragment := by
  cases production with
  | ofLeaf leaf =>
      rw [parse_ofLeaf] at hParse
      have hNone : Code.IsContent ([] : Code) := by
        intro token hToken
        cases hToken
      exact Leaf.derives_of_parse hNone hParse
  | ofSection group =>
      rw [parse_ofSection] at hParse
      exact hSections group hParse

namespace Section

/- A section that was just opened has no pieces. -/
theorem fits_nil
    (group : Section) :
    ∀ piece ∈ ([] : List Piece), piece.Fits group := by
  intro piece hPiece
  cases hPiece

/- A section that was just opened has set nothing twice. -/
theorem setsOnce_empty
    (group : Section) :
    group.SetsOnce (.ofPieces []) := by
  constructor
  · intro tag child _ _
    exact Nat.zero_le 1
  · intro tag
    exact Nat.zero_le 1

/-
  A section that is read derives from the pieces that were read
  before and those that are found. The induction is on the
  tokens that are left, since a child takes some of them.
-/
theorem derives_of_parse
    {group : Section}
    {path : List String}
    {pieces : List Piece}
    {before rest : List Token}
    {fragment : Fragment}
    {cursor : Cursor}
    (hFits : ∀ piece ∈ pieces, piece.Fits group)
    (hOnce : group.SetsOnce (.ofPieces pieces))
    (hParse :
      group.parse path (.ofPieces pieces) before rest =
        .ok (fragment, cursor)) :
    ∃ tokens,
      Cursor.Covers before rest tokens cursor ∧
        (Production.ofSection group).Derives
          (pieces.flatMap Piece.tokens ++ tokens)
          fragment := by
  induction hLength : rest.length using Nat.strongRecOn
    generalizing group path pieces before rest fragment cursor
    with
  | ind length ih =>
  cases rest with
  | nil =>
      rw [parse_nil] at hParse
      cases hParse
  | cons token rest =>
      subst hLength
      have hTyped := isTyped_ofPieces hFits
      rw [parse_cons] at hParse
      cases hRead : group.read token with
      | close =>
          simp only [hRead] at hParse
          cases hClose :
              group.close path (.ofPieces pieces) token with
          | error fault => simp [hClose, Except.map] at hParse
          | ok found =>
              simp only [hClose, Except.map] at hParse
              cases hParse
              have hForms :=
                (close_eq_ok_iff hTyped hOnce).mp hClose
              exact ⟨[token], ⟨rfl, rfl⟩,
                Production.derives_of_fits hFits hOnce hForms
                  (read_eq_close_iff.mp hRead)⟩
      | opening tag child =>
          rcases read_eq_opening_iff.mp hRead with
            ⟨hOpens, hChild⟩
          simp only [hRead] at hParse
          split at hParse
          · cases hParse
          · rename_i hPrior
            cases hInner : child.production.parse
                (group.id :: path)
                ⟨token :: before, rest⟩ with
            | error fault =>
                simp [hInner, Except.bind] at hParse
            | ok found =>
                rcases found with ⟨part, later⟩
                simp only [hInner, Except.bind] at hParse
                rcases Production.derives_of_sections
                    (fun inner hFound =>
                      ih rest.length (Nat.lt_succ_self _)
                        inner.fits_nil inner.setsOnce_empty
                        hFound rfl)
                    hInner with
                  ⟨inside, hInside, hDerives⟩
                let piece : Piece :=
                  .child token inside tag part
                have hPiece : piece.Fits group :=
                  .child hOpens hChild hDerives
                have hWithin :
                    later.rest.length < rest.length :=
                  Yield.within_of_toPair hInner
                have hDraft :
                    Draft.ofPieces (pieces ++ [piece]) =
                      (Draft.ofPieces pieces).add
                        (.child tag part) :=
                  Draft.ofPieces_concat pieces rfl
                have hMore :=
                  hOnce.add_child hTyped hChild hPrior part
                rw [← hDraft] at hParse hMore
                rcases ih later.rest.length
                    (Nat.lt_succ_of_lt hWithin)
                    (Piece.fits_concat hFits hPiece) hMore
                    hParse rfl with
                  ⟨tokens, hCovers, hAll⟩
                exact ⟨token :: inside ++ tokens,
                  hInside.cons.trans hCovers, by
                    simpa [piece, Piece.tokens] using hAll⟩
      | mark tag =>
          rcases read_eq_mark_iff.mp hRead with ⟨hMarks, hMark⟩
          simp only [hRead] at hParse
          split at hParse
          · cases hParse
          · rename_i hMarked
            let piece : Piece := .mark token tag
            have hPiece : piece.Fits group :=
              .mark hMarks hMark
            have hDraft :
                Draft.ofPieces (pieces ++ [piece]) =
                  (Draft.ofPieces pieces).add (.mark tag) :=
              Draft.ofPieces_concat pieces rfl
            have hMore :=
              hOnce.add_mark (Bool.eq_false_iff.mpr hMarked)
            rw [← hDraft] at hParse hMore
            rcases ih rest.length (Nat.lt_succ_self _)
                (Piece.fits_concat hFits hPiece) hMore hParse
                rfl with
              ⟨tokens, hCovers, hAll⟩
            exact ⟨token :: tokens, hCovers.cons, by
              simpa [piece, Piece.tokens] using hAll⟩
      | stray =>
          simp only [hRead] at hParse
          cases hParse

end Section

/- A production that is read derives. -/
theorem Production.derives_of_parse
    {production : Production}
    {path : List String}
    {before rest : List Token}
    {fragment : Fragment}
    {cursor : Cursor}
    (hParse :
      production.parse path ⟨before, rest⟩ =
        .ok (fragment, cursor)) :
    ∃ tokens,
      Cursor.Covers before rest tokens cursor ∧
        production.Derives tokens fragment :=
  derives_of_sections
    (fun group hFound =>
      Section.derives_of_parse group.fits_nil
        group.setsOnce_empty hFound)
    hParse

------------------------------------------------------------
-- Whole Traits
------------------------------------------------------------

namespace Step

/- Without frames, a production is just read. -/
theorem run_enter_nil
    (production : Production)
    (cursor : Cursor) :
    (enter production.id cursor []).run =
      production.parse [] cursor := by
  rw [run_enter, Frames.chain, List.map_nil]
  cases production.parse [] cursor with
  | error fault => rfl
  | ok found =>
      rcases found with ⟨fragment, later⟩
      rw [Frames.receive, run]
      split <;> simp_all [next]

end Step

namespace TraitDecl

/- A result is a declaration with nothing behind it. -/
theorem ofResult_eq_ok_iff
    {fragment : Fragment}
    {cursor : Cursor}
    {decl : TraitDecl} :
    ofResult (fragment, cursor) = .ok decl ↔
      cursor.rest = [] ∧ fragment = .trait decl := by
  rcases cursor with ⟨before, rest⟩
  cases rest with
  | nil => cases fragment <;> simp [ofResult]
  | cons token rest => simp [ofResult]

/- What a token stream declares, in terms of the descent. -/
theorem ofTokens_cons
    {token : Token}
    {rest : List Token}
    (hOpens : token.opens "trait") :
    ofTokens (token :: rest) =
      ((Production.ofSection .trait).parse []
        ⟨[token], rest⟩).bind ofResult := by
  have hTrait : token.opens Section.trait.closeTag.text :=
    hOpens
  have hRun :
      (Step.enter Section.trait.id ⟨[token], rest⟩ []).run =
        (Production.ofSection .trait).parse []
          ⟨[token], rest⟩ :=
    Step.run_enter_nil (.ofSection .trait) _
  rw [ofTokens, if_pos hTrait, hRun]
  cases (Production.ofSection .trait).parse []
    ⟨[token], rest⟩ <;> rfl

/- Tokens that declare a trait derive it. -/
theorem derivedFrom_of_ofTokens
    {tokens : List Token}
    {decl : TraitDecl}
    (hTokens : ofTokens tokens = .ok decl) :
    decl.DerivedFrom tokens := by
  cases tokens with
  | nil => cases hTokens
  | cons token rest =>
      by_cases hOpens : token.opens "trait"
      · rw [ofTokens_cons hOpens] at hTokens
        cases hParse : (Production.ofSection .trait).parse []
            ⟨[token], rest⟩ with
        | error fault =>
            simp [hParse, Except.bind] at hTokens
        | ok found =>
            rcases found with ⟨fragment, cursor⟩
            simp only [hParse, Except.bind] at hTokens
            rcases ofResult_eq_ok_iff.mp hTokens with
              ⟨hEnd, rfl⟩
            rcases Production.derives_of_parse hParse with
              ⟨inside, hCovers, hDerives⟩
            have hRest : rest = inside := by
              rw [hCovers.rest, hEnd, List.append_nil]
            exact ⟨token, inside, by rw [hRest], hOpens,
              hDerives⟩
      · rw [ofTokens] at hTokens
        split at hTokens
        · contradiction
        · cases hTokens

/- Tokens that derive a trait declare it. -/
theorem ofTokens_of_derivedFrom
    {tokens : List Token}
    {decl : TraitDecl}
    (hDerived : decl.DerivedFrom tokens) :
    ofTokens tokens = .ok decl := by
  rcases hDerived with ⟨opener, inside, rfl, hOpens, hDerives⟩
  have hReads :=
    Production.reads_of_derives hDerives [] [opener] []
  rw [List.append_nil] at hReads
  rw [ofTokens_cons hOpens, hReads, Except.bind,
    ofResult_eq_ok_iff]
  exact ⟨rfl, rfl⟩

/-
  The tokens that are accepted are those of the grammar, and
  each stands for the declaration that it derives.
-/
theorem ofTokens_eq_ok_iff
    (tokens : List Token)
    (decl : TraitDecl) :
    ofTokens tokens = .ok decl ↔ decl.DerivedFrom tokens :=
  ⟨derivedFrom_of_ofTokens, ofTokens_of_derivedFrom⟩

end TraitDecl

end TraitMarkup
