import TraitMarkup.Proofs.Likeness
import TraitMarkup.Proofs.Redefinition
import TraitMarkup.Proofs.Truncation

/-
  The parts of a section in another order.

  A section only keeps, for each field, the children that fill
  it, and the marks. Parts may so be put into another order as
  long as those that fill one field, and may be several, keep
  theirs. What is read stays the same, at every depth, and a
  trait is printed as before.

  Key definitions include:
    * `Draft.Matches`
    * `Section.entryOf?`
    * `Section.field?`
    * `Relabel.seen`
    * `Section.Permutes`
    * `Production.Rearranged`

  Main declarations:
    * `Draft.matches_of_perm`
    * `Section.run_of_entries`
    * `Section.run_of_views`
    * `Production.Rearranged.run`
    * `Section.rearrangement`
-/

namespace TraitMarkup

------------------------------------------------------------
-- Drafts With The Same Fields
------------------------------------------------------------

/- Two drafts of a section agree in all that it looks at. -/
structure Draft.Matches
    (group : Section)
    (left right : Draft) : Prop where
  values :
    ∀ field, left.values group field = right.values group field
  marked : ∀ tag, left.marked tag = right.marked tag
  pattern : left.isPattern group = right.isPattern group

namespace Draft.Matches

variable {group : Section}
variable {left right : Draft}

theorem value?_eq
    (hMatches : left.Matches group right)
    (field : Field) :
    left.value? group field = right.value? group field := by
  rw [value?, value?, hMatches.values]

/- Drafts that agree miss the same. -/
theorem missing_eq
    (hMatches : left.Matches group right) :
    group.missing left = group.missing right := by
  simp only [Section.missing, hMatches.value?_eq,
    hMatches.values]

/- Drafts that agree are built alike. -/
theorem build?_eq
    (hMatches : left.Matches group right) :
    group.build? left = group.build? right := by
  cases group <;>
    simp only [Section.build?, Section.genericsOf?,
      Section.lifetimeParamOf?, Section.typeParamOf?,
      Section.constParamOf?, Section.forBoundOf?,
      Section.lifetimeClauseOf?, Section.typeClauseOf?,
      Section.forClauseOf?, Section.assocTypeOf?,
      Section.assocConstOf?, Section.fnParamOf?,
      Section.assocFnOf?, Section.traitDeclOf?, the?,
      optional?, every?, hMatches.value?_eq, hMatches.values,
      hMatches.marked, hMatches.pattern]

end Draft.Matches

/- A list of one element at most has one order. -/
theorem eq_of_perm_of_length_le
    {α : Type}
    {left right : List α}
    (hPerm : left.Perm right)
    (hLength : left.length ≤ 1) :
    left = right := by
  rcases left with _ | ⟨first, _ | ⟨second, rest⟩⟩
  · exact hPerm.nil_eq
  · exact (List.singleton_perm.mp hPerm)
  · simp at hLength

namespace Section

/- A field that no repeated child fills has one value at most. -/
theorem SetsOnce.length_le
    {group : Section}
    {draft : Draft}
    (hOnce : group.SetsOnce draft)
    {field : Field}
    (hSingle :
      ∀ tag child,
        group.child? tag = some child → child.field = field →
          child.repeated = false) :
    (draft.values group field).length ≤ 1 := by
  by_contra hMany
  have hSome : draft.values group field ≠ [] := by
    intro hNone
    simp [hNone] at hMany
  rcases List.exists_mem_of_ne_nil _ hSome with
    ⟨value, hValue⟩
  rcases List.mem_filterMap.mp hValue with
    ⟨entry, _, hGiven⟩
  cases entry with
  | mark tag => cases hGiven
  | child tag fragment =>
      simp only [Entry.value?] at hGiven
      split at hGiven
      · cases hGiven
      · rename_i child hChild
        split at hGiven
        · rename_i hField
          have hLength :=
            hOnce.1 tag child hChild
              (hSingle tag child hChild hField)
          rw [hField] at hLength
          exact hMany hLength
        · cases hGiven

/- What is set once is set once in any order. -/
theorem SetsOnce.of_perm
    {group : Section}
    {left right : Draft}
    (hOnce : group.SetsOnce left)
    (hPerm : left.entries.Perm right.entries) :
    group.SetsOnce right := by
  constructor
  · intro tag child hChild hSingle
    have hValues :
        (left.values group child.field).Perm
          (right.values group child.field) :=
      hPerm.filterMap _
    rw [← hValues.length_eq]
    exact hOnce.1 tag child hChild hSingle
  · intro tag
    rw [← hPerm.count_eq]
    exact hOnce.2 tag

/- An argument is given once, by whichever tag. -/
theorem repeated_of_arg
    {group : Section}
    {tag : Tag}
    {child : Child}
    (hChild : group.child? tag = some child)
    (hField : child.field = .arg) :
    child.repeated = false := by
  cases group <;> cases tag <;> cases hChild <;>
    first
    | rfl
    | cases hField

end Section

/-
  Drafts agree when their entries are the same up to their
  order, and those of a repeated field in the same order. The
  other fields have one value at most.
-/
theorem Draft.matches_of_perm
    {group : Section}
    {left right : Draft}
    (hOnce : group.SetsOnce left)
    (hPerm : left.entries.Perm right.entries)
    (hOrder :
      ∀ tag child,
        group.child? tag = some child →
          child.repeated = true →
            left.values group child.field =
              right.values group child.field) :
    left.Matches group right where
  values := by
    intro field
    by_cases hRepeated :
        ∃ tag child,
          group.child? tag = some child ∧
            child.field = field ∧ child.repeated = true
    · rcases hRepeated with
        ⟨tag, child, hChild, rfl, hMany⟩
      exact hOrder tag child hChild hMany
    · apply eq_of_perm_of_length_le (hPerm.filterMap _)
      apply hOnce.length_le
      intro tag child hChild hField
      by_contra hMany
      exact hRepeated
        ⟨tag, child, hChild, hField, by simpa using hMany⟩
  marked := by
    intro tag
    rw [Bool.eq_iff_iff, marked_iff, marked_iff]
    exact hPerm.mem_iff
  pattern := by
    have hTags :
        left.entries.filterMap (Entry.tagFor? group .arg) =
          right.entries.filterMap
            (Entry.tagFor? group .arg) := by
      apply eq_of_perm_of_length_le (hPerm.filterMap _)
      rw [length_tagsFor]
      apply hOnce.length_le
      intro tag child hChild hField
      exact Section.repeated_of_arg hChild hField
    rw [isPattern, isPattern, hTags]

------------------------------------------------------------
-- Parts Of A Section
------------------------------------------------------------

namespace Section

/- The field that a part of a section is for. -/
def field?
    (group : Section)
    (part : List Token) :
    Option Field :=
  match part.head?.map group.read with
  | some (.opening _ child) => some child.field
  | _ => none

/-
  What a part of a section adds to it: a child, when all of its
  inside is read, or a mark.
-/
def entryOf?
    (group : Section) :
    List Token → Option Entry
  | [] => none
  | opener :: inside =>
      match group.read opener with
      | .opening tag child =>
          match Production.run child.production.id inside with
          | .ok (fragment, []) => some (.child tag fragment)
          | _ => none
      | .mark tag =>
          if inside = [] then some (.mark tag) else none
      | _ => none

variable {group : Section}

/- A part adds an entry when it is a piece that fits. -/
theorem entryOf?_eq_some_iff
    {part : List Token}
    {entry : Entry} :
    group.entryOf? part = some entry ↔
      ∃ piece : Piece,
        piece.Fits group ∧
          piece.tokens = part ∧
          piece.entry = entry := by
  constructor
  · intro hEntry
    cases part with
    | nil => cases hEntry
    | cons opener inside =>
        simp only [entryOf?] at hEntry
        cases hRead : group.read opener with
        | opening tag child =>
            rcases read_eq_opening_iff.mp hRead with
              ⟨hOpens, hChild⟩
            simp only [hRead] at hEntry
            split at hEntry
            · rename_i fragment hRun
              cases hEntry
              rcases Production.run_eq_ok_iff.mp hRun with
                ⟨all, hAll, hDerives⟩
              rw [List.append_nil] at hAll
              subst hAll
              exact ⟨.child opener inside tag fragment,
                .child hOpens hChild hDerives, rfl, rfl⟩
            · cases hEntry
        | mark tag =>
            rcases read_eq_mark_iff.mp hRead with
              ⟨hMarks, hMark⟩
            simp only [hRead] at hEntry
            split at hEntry
            · rename_i hInside
              cases hEntry
              subst hInside
              exact ⟨.mark opener tag, .mark hMarks hMark, rfl,
                rfl⟩
            · cases hEntry
        | close => simp [hRead] at hEntry
        | stray => simp [hRead] at hEntry
  · rintro ⟨piece, hFits, rfl, rfl⟩
    cases hFits with
    | child hOpens hChild hDerives =>
        have hRun :=
          Production.run_eq_ok_iff.mpr
            ⟨_, (List.append_nil _).symm, hDerives⟩
        simp [Piece.tokens, entryOf?, Piece.entry, hRun,
          read_eq_opening_iff.mpr ⟨hOpens, hChild⟩]
    | mark hMarks hMark =>
        simp [Piece.tokens, entryOf?, Piece.entry,
          read_eq_mark_iff.mpr ⟨hMarks, hMark⟩]

/- Parts that all add an entry are pieces that fit. -/
theorem exists_pieces
    {parts : List (List Token)}
    (hParts : ∀ part ∈ parts, (group.entryOf? part).isSome) :
    ∃ pieces : List Piece,
      (∀ piece ∈ pieces, piece.Fits group) ∧
        pieces.flatMap Piece.tokens = parts.flatten ∧
        (Draft.ofPieces pieces).entries =
          parts.filterMap group.entryOf? := by
  induction parts with
  | nil => exact ⟨[], group.fits_nil, rfl, rfl⟩
  | cons part parts ih =>
      rcases List.forall_mem_cons.mp hParts with
        ⟨hPart, hRest⟩
      rcases Option.isSome_iff_exists.mp hPart with
        ⟨entry, hEntry⟩
      rcases entryOf?_eq_some_iff.mp hEntry with
        ⟨piece, hPiece, hTokens, hSame⟩
      rcases ih hRest with
        ⟨pieces, hFits, hAll, hEntries⟩
      refine ⟨piece :: pieces, ?_, ?_, ?_⟩
      · exact List.forall_mem_cons.mpr ⟨hPiece, hFits⟩
      · rw [List.flatMap_cons, hTokens, hAll, List.flatten_cons]
      · rw [List.filterMap_cons_some hEntry, ← hEntries, ← hSame]
        rfl

/-
  Pieces that fit are read up to a closing tag exactly when they
  set nothing twice and form something.
-/
theorem run_pieces_eq_ok_iff
    {pieces : List Piece}
    (hFits : ∀ piece ∈ pieces, piece.Fits group)
    {close : Token}
    (hClose : close.closes group.closeTag.text)
    {after : List Token}
    {fragment : Fragment} :
    Production.run group.id
        (pieces.flatMap Piece.tokens ++ close :: after) =
          .ok (fragment, after) ↔
      group.SetsOnce (.ofPieces pieces) ∧
        group.Forms (.ofPieces pieces) fragment := by
  have hId : group.id = (Production.ofSection group).id := rfl
  constructor
  · intro hRun
    have hOnce : group.SetsOnce (.ofPieces pieces) := by
      by_contra hTwice
      rcases redefinesAt_of_not_setsOnce hFits hTwice [] []
        with
        ⟨done, token, later, prior, hTokens, failure, _, _,
          hRefused⟩
      have hStop := hRefused (later ++ close :: after)
      rw [hTokens, List.append_assoc, List.cons_append,
        Production.run, Cursor.ofTokens, hStop] at hRun
      cases hRun
    refine ⟨hOnce, ?_⟩
    rw [hId, Production.run_eq, parse_of_fits hFits hOnce,
      parse_cons, read_eq_close_iff.mpr hClose] at hRun
    dsimp only at hRun
    cases hClosed :
        group.close [] (.ofPieces pieces) close with
    | error fault =>
        rw [hClosed] at hRun
        cases hRun
    | ok found =>
        rw [hClosed] at hRun
        cases hRun
        exact (close_eq_ok_iff (isTyped_ofPieces hFits)
          hOnce).mp hClosed
  · rintro ⟨hOnce, hForms⟩
    rw [hId]
    exact Production.run_eq_ok_iff.mpr
      ⟨_, by simp,
        Production.derives_of_fits hFits hOnce hForms hClose⟩

/-
  Parts with the same entries, in an order that repeated fields
  do not notice, are read as the same fragment.
-/
theorem run_of_entries
    {left right : List (List Token)}
    (hLeft : ∀ part ∈ left, (group.entryOf? part).isSome)
    (hRight : ∀ part ∈ right, (group.entryOf? part).isSome)
    (hPerm :
      (left.filterMap group.entryOf?).Perm
        (right.filterMap group.entryOf?))
    (hOrder :
      ∀ tag child,
        group.child? tag = some child →
          child.repeated = true →
            Draft.values ⟨left.filterMap group.entryOf?⟩ group
                child.field =
              Draft.values ⟨right.filterMap group.entryOf?⟩ group
                child.field)
    {close other : Token}
    (hClose : close.closes group.closeTag.text)
    (hOther : other.closes group.closeTag.text)
    {after later : List Token}
    {fragment : Fragment}
    (hRun :
      Production.run group.id (left.flatten ++ close :: after) =
        .ok (fragment, after)) :
    Production.run group.id (right.flatten ++ other :: later) =
      .ok (fragment, later) := by
  rcases exists_pieces hLeft with
    ⟨pieces, hFits, hTokens, hEntries⟩
  rcases exists_pieces hRight with
    ⟨others, hOthers, hOtherTokens, hOtherEntries⟩
  rw [← hTokens] at hRun
  rcases (run_pieces_eq_ok_iff hFits hClose).mp hRun with
    ⟨hOnce, hForms⟩
  have hSame :
      (Draft.ofPieces pieces).entries.Perm
        (Draft.ofPieces others).entries := by
    rw [hEntries, hOtherEntries]
    exact hPerm
  have hMatches :
      (Draft.ofPieces pieces).Matches group
        (.ofPieces others) := by
    refine Draft.matches_of_perm hOnce hSame ?_
    intro tag child hChild hRepeated
    rw [Draft.values, Draft.values, hEntries, hOtherEntries]
    exact hOrder tag child hChild hRepeated
  have hOtherOnce := hOnce.of_perm hSame
  have hMissing : group.missing (.ofPieces others) = [] := by
    rw [← hMatches.missing_eq]
    exact missing_of_forms hForms
  rcases exists_forms (isTyped_ofPieces hOthers) hOtherOnce
      hMissing with
    ⟨found, hFound⟩
  have hBuilt := build?_of_forms hFound
  rw [← hMatches.build?_eq, build?_of_forms hForms] at hBuilt
  cases hBuilt
  rw [← hOtherTokens]
  exact (run_pieces_eq_ok_iff hOthers hOther).mpr
    ⟨hOtherOnce, hFound⟩

/- The values of a field come from the parts for that field. -/
theorem values_of_parts
    (group : Section)
    (parts : List (List Token))
    (field : Field) :
    Draft.values ⟨parts.filterMap group.entryOf?⟩ group field =
      (parts.filter (group.field? · = some field)).filterMap
        (fun part =>
          (group.entryOf? part).bind
            (Entry.value? group field)) := by
  rw [Draft.values, List.filterMap_filterMap,
    List.filterMap_filter]
  congr 1
  funext part
  split
  · rfl
  · rename_i hField
    -- A part for another field gives this one nothing.
    cases hEntry : group.entryOf? part with
    | none => rfl
    | some entry =>
        rcases entryOf?_eq_some_iff.mp hEntry with
          ⟨piece, hFits, rfl, rfl⟩
        cases hFits with
        | mark => rfl
        | child hOpens hChild hDerives =>
            have hRead :=
              read_eq_opening_iff.mpr ⟨hOpens, hChild⟩
            simp only [Piece.tokens, field?, List.head?_cons,
              Option.map_some, hRead, decide_eq_true_eq,
              Option.some.injEq] at hField
            simp [Piece.entry, Entry.value?, hChild, hField]

end Section

------------------------------------------------------------
-- Parts Up To Gaps And Places
------------------------------------------------------------

namespace Production

/- What is read from relabeled tokens is relabeled. -/
theorem run_relabel
    (r : Relabel)
    {production : Production}
    {tokens rest : List Token}
    {fragment : Fragment}
    (hRun :
      run production.id tokens = .ok (fragment, rest)) :
    run production.id (tokens.map r.apply) =
      .ok (fragment.relabel r, rest.map r.apply) := by
  have hCarries := production.uniform_run r tokens
  rw [hRun] at hCarries
  generalize run production.id (tokens.map r.apply) = other
    at hCarries ⊢
  cases hCarries with
  | ok => rfl

/- What is read from relabeled tokens was read before. -/
theorem run_of_relabel
    (r : Relabel)
    {production : Production}
    {tokens rest : List Token}
    {fragment : Fragment}
    (hRun :
      run production.id (tokens.map r.apply) =
        .ok (fragment, rest)) :
    ∃ found left,
      run production.id tokens = .ok (found, left) ∧
        found.relabel r = fragment ∧
        left.map r.apply = rest := by
  have hCarries := production.uniform_run r tokens
  rw [hRun] at hCarries
  generalize hOther : run production.id tokens = other
    at hCarries
  cases hCarries with
  | ok result => exact ⟨result.1, result.2, rfl, rfl, rfl⟩

end Production

namespace Section

/- A relabeled part adds a relabeled entry. -/
theorem entryOf?_relabel
    (r : Relabel)
    (group : Section)
    (part : List Token) :
    group.entryOf? (part.map r.apply) =
      (group.entryOf? part).map (Entry.relabel r) := by
  cases part with
  | nil => rfl
  | cons opener inside =>
      simp only [List.map_cons, entryOf?, read_relabel]
      cases group.read opener with
      | opening tag child =>
          have hCarries :=
            child.production.uniform_run r inside
          dsimp only
          generalize
            Production.run child.production.id inside = left
            at hCarries ⊢
          generalize
            Production.run child.production.id
              (inside.map r.apply) = right at hCarries ⊢
          cases hCarries with
          | rejected => rfl
          | ok result =>
              rcases result with ⟨fragment, _ | ⟨token, rest⟩⟩
              · rfl
              · rfl
      | mark tag =>
          by_cases hInside : inside = []
          · simp [hInside, Entry.relabel]
          · simp [hInside]
      | close => rfl
      | stray => rfl

/- A relabeled part is for the same field. -/
theorem field?_relabel
    (r : Relabel)
    (group : Section)
    (part : List Token) :
    group.field? (part.map r.apply) = group.field? part := by
  cases part with
  | nil => rfl
  | cons opener inside =>
      simp [field?, read_relabel]

/- What a part adds to a section, relabeled. -/
def view?
    (group : Section)
    (r : Relabel)
    (part : List Token) :
    Option Entry :=
  (group.entryOf? part).map (Entry.relabel r)

/- The parts with all their tokens relabeled. -/
def relabelParts
    (r : Relabel)
    (parts : List (List Token)) :
    List (List Token) :=
  parts.map (List.map r.apply)

section RelabeledParts

variable
  (r : Relabel)
  (group : Section)
  (parts : List (List Token))

/- The tokens of a closed section, relabeled. -/
theorem map_flatten_concat
    (close : Token) :
    (parts.flatten ++ [close]).map r.apply =
      (relabelParts r parts).flatten ++ [r.apply close] := by
  simp [relabelParts, List.map_flatten]

/- Relabeled parts add what the parts add, relabeled. -/
theorem filterMap_entryOf?_relabelParts :
    (relabelParts r parts).filterMap group.entryOf? =
      (parts.map (group.view? r)).filterMap
        (fun entry => entry) := by
  have hEntry :
      group.entryOf? ∘ List.map r.apply = group.view? r :=
    funext (group.entryOf?_relabel r)
  rw [relabelParts, List.filterMap_map, hEntry,
    List.filterMap_map]
  rfl

/- Relabeled parts all add an entry when the parts do. -/
theorem isSome_entryOf?_relabelParts
    (hParts : ∀ part ∈ parts, (group.entryOf? part).isSome) :
    ∀ part ∈ relabelParts r parts,
      (group.entryOf? part).isSome := by
  intro part hPart
  rcases List.mem_map.mp hPart with ⟨old, hOld, rfl⟩
  rw [entryOf?_relabel, Option.isSome_map]
  exact hParts old hOld

/- The values of a field that relabeled parts give. -/
theorem values_relabelParts
    (field : Field) :
    Draft.values
        ⟨(relabelParts r parts).filterMap group.entryOf?⟩ group
        field =
      ((parts.filter (group.field? · = some field)).map
        (group.view? r)).filterMap
          (Option.bind · (Entry.value? group field)) := by
  have hField :
      (fun part => decide (group.field? part = some field)) ∘
          List.map r.apply =
        fun part =>
          decide (group.field? part = some field) := by
    funext part
    simp [field?_relabel]
  have hValue :
      (fun part =>
          (group.entryOf? part).bind (Entry.value? group field)) ∘
            List.map r.apply =
        (Option.bind · (Entry.value? group field)) ∘
          group.view? r := by
    funext part
    simp [entryOf?_relabel, view?]
  rw [values_of_parts, relabelParts, List.filter_map, hField,
    List.filterMap_map, List.filterMap_map, hValue]

end RelabeledParts

/-
  Parts that add the same up to a relabeling, in an order that
  repeated fields do not notice, are read as the same fragment
  up to that relabeling.
-/
theorem run_of_views
    (r : Relabel)
    {group : Section}
    {left right : List (List Token)}
    (hLeft : ∀ part ∈ left, (group.entryOf? part).isSome)
    (hRight : ∀ part ∈ right, (group.entryOf? part).isSome)
    (hPerm :
      (left.map (group.view? r)).Perm
        (right.map (group.view? r)))
    (hOrder :
      ∀ tag child,
        group.child? tag = some child →
          child.repeated = true →
            (left.filter
                (group.field? · = some child.field)).map
                (group.view? r) =
              (right.filter
                (group.field? · = some child.field)).map
                (group.view? r))
    {close other : Token}
    (hClose : close.closes group.closeTag.text)
    (hOther : other.closes group.closeTag.text)
    {fragment : Fragment}
    (hRun :
      Production.run group.id (left.flatten ++ [close]) =
        .ok (fragment, [])) :
    ∃ found,
      Production.run group.id (right.flatten ++ [other]) =
          .ok (found, []) ∧
        found.relabel r = fragment.relabel r := by
  have hId : group.id = (Production.ofSection group).id := rfl
  rw [hId] at hRun ⊢
  have hStart := Production.run_relabel r hRun
  rw [map_flatten_concat, List.map_nil] at hStart
  have hEnd :
      Production.run (Production.ofSection group).id
          ((relabelParts r right).flatten ++ [r.apply other]) =
        .ok (fragment.relabel r, []) := by
    refine run_of_entries
      (isSome_entryOf?_relabelParts r group left hLeft)
      (isSome_entryOf?_relabelParts r group right hRight)
      ?_ ?_ ?_ ?_ hStart
    · rw [filterMap_entryOf?_relabelParts,
        filterMap_entryOf?_relabelParts]
      exact hPerm.filterMap _
    · intro tag child hChild hRepeated
      rw [values_relabelParts, values_relabelParts,
        hOrder tag child hChild hRepeated]
    · rwa [close.closes_relabel r]
    · rwa [other.closes_relabel r]
  rw [← map_flatten_concat] at hEnd
  rcases Production.run_of_relabel r hEnd with
    ⟨found, rest, hFound, hSame, hRest⟩
  rw [List.map_eq_nil_iff.mp hRest] at hFound
  exact ⟨found, hFound, hSame⟩

end Section

------------------------------------------------------------
-- Another Order
------------------------------------------------------------

/- The relabeling that drops gaps and places. -/
def Relabel.baring : Relabel where
  apply := Token.bare
  kind_apply := fun _ => rfl
  text_apply := fun _ => rfl

/-
  A part as far as a relabeling shows it. The gap in front of
  the part and its place do not count.
-/
def Relabel.seen
    (r : Relabel) :
    List Token → List Token
  | [] => []
  | opener :: inside => opener.bare :: inside.map r.apply

/-
  The right parts are the left ones in another order, up to a
  relabeling. Parts for one field that takes several children
  keep their order.
-/
structure Section.Permutes
    (group : Section)
    (r : Relabel)
    (left right : List (List Token)) : Prop where
  parts : ∀ part ∈ left, (group.entryOf? part).isSome
  same : (left.map r.seen).Perm (right.map r.seen)
  order :
    ∀ tag child,
      group.child? tag = some child → child.repeated = true →
        (left.filter
            (group.field? · = some child.field)).map r.seen =
          (right.filter
            (group.field? · = some child.field)).map r.seen

namespace Section

/- What a part adds is told by what is seen of it. -/
theorem entryOf?_seen
    (r : Relabel)
    (group : Section)
    (part : List Token) :
    group.entryOf? (r.seen part) = group.view? r part := by
  rw [view?, ← entryOf?_relabel]
  cases part with
  | nil => rfl
  | cons opener inside =>
      have hRead :
          group.read opener.bare =
            group.read (r.apply opener) := by
        rw [read_relabel]
        exact group.read_relabel .baring opener
      simp only [Relabel.seen, List.map_cons, entryOf?, hRead]

namespace Permutes

variable {group : Section}
variable {r : Relabel}
variable {left right : List (List Token)}

/- All parts add an entry, in the other order, too. -/
theorem isSome_right
    (hPermutes : group.Permutes r left right) :
    ∀ part ∈ right, (group.entryOf? part).isSome := by
  intro part hPart
  have hSeen :=
    hPermutes.same.mem_iff.mpr
      (List.mem_map_of_mem (f := r.seen) hPart)
  rcases List.mem_map.mp hSeen with ⟨old, hOld, hSame⟩
  have hViews := congrArg group.entryOf? hSame
  rw [entryOf?_seen, entryOf?_seen] at hViews
  have hSome := congrArg Option.isSome hViews
  rw [view?, view?, Option.isSome_map, Option.isSome_map,
    hPermutes.parts old hOld] at hSome
  exact hSome.symm

/- In another order parts are read as the same fragment. -/
theorem run
    (hPermutes : group.Permutes r left right)
    {close other : Token}
    (hClose : close.closes group.closeTag.text)
    (hOther : other.closes group.closeTag.text)
    {fragment : Fragment}
    (hRun :
      Production.run group.id (left.flatten ++ [close]) =
        .ok (fragment, [])) :
    ∃ found,
      Production.run group.id (right.flatten ++ [other]) =
          .ok (found, []) ∧
        found.relabel r = fragment.relabel r := by
  have hView :
      group.view? r = group.entryOf? ∘ r.seen :=
    funext fun part => (group.entryOf?_seen r part).symm
  refine run_of_views r hPermutes.parts hPermutes.isSome_right
    ?_ ?_ hClose hOther hRun
  · rw [hView, ← List.map_map, ← List.map_map]
    exact hPermutes.same.map _
  · intro tag child hChild hRepeated
    rw [hView, ← List.map_map, ← List.map_map,
      hPermutes.order tag child hChild hRepeated]

end Permutes

/- A child that is read alike leaves its section alike. -/
theorem run_within
    (r : Relabel)
    {group : Section}
    {before behind : List (List Token)}
    {opener : Token}
    {tag : Tag}
    {child : Child}
    {inside changed : List Token}
    {part other : Fragment}
    {close : Token}
    (hBefore : ∀ part ∈ before, (group.entryOf? part).isSome)
    (hBehind : ∀ part ∈ behind, (group.entryOf? part).isSome)
    (hOpens : opener.opens tag.text)
    (hChild : group.child? tag = some child)
    (hInside :
      Production.run child.production.id inside =
        .ok (part, []))
    (hChanged :
      Production.run child.production.id changed =
        .ok (other, []))
    (hSame : other.relabel r = part.relabel r)
    (hClose : close.closes group.closeTag.text)
    {fragment : Fragment}
    (hRun :
      Production.run group.id
          ((before ++ (opener :: inside) :: behind).flatten ++
            [close]) =
        .ok (fragment, [])) :
    ∃ found,
      Production.run group.id
          ((before ++ (opener :: changed) :: behind).flatten ++
            [close]) =
          .ok (found, []) ∧
        found.relabel r = fragment.relabel r := by
  have hRead := read_eq_opening_iff.mpr ⟨hOpens, hChild⟩
  have hOld :
      group.entryOf? (opener :: inside) =
        some (.child tag part) := by
    simp [entryOf?, hRead, hInside]
  have hNew :
      group.entryOf? (opener :: changed) =
        some (.child tag other) := by
    simp [entryOf?, hRead, hChanged]
  have hParts :
      ∀ middle entry, group.entryOf? middle = some entry →
        ∀ part ∈ before ++ middle :: behind,
          (group.entryOf? part).isSome := by
    intro middle entry hMiddle
    refine List.forall_mem_append.mpr
      ⟨hBefore, List.forall_mem_cons.mpr ⟨?_, hBehind⟩⟩
    rw [hMiddle]
    rfl
  have hView :
      group.view? r (opener :: inside) =
        group.view? r (opener :: changed) := by
    simp [view?, hOld, hNew, Entry.relabel, hSame]
  have hField :
      group.field? (opener :: inside) =
        group.field? (opener :: changed) := rfl
  refine run_of_views r (hParts _ _ hOld) (hParts _ _ hNew)
    ?_ ?_ hClose hClose hRun
  · simp [hView]
  · intro _ kind _ _
    simp only [List.filter_append, List.filter_cons, hField]
    split
    · simp [hView]
    · rfl

end Section

------------------------------------------------------------
-- Another Order At Every Depth
------------------------------------------------------------

/-
  One inside of a production becomes another by relabeling its
  tokens, by a change of the order of its parts, by such a
  change inside one of its children, and by several of these.
-/
inductive Production.Rearranged
    (r : Relabel) :
    Production → List Token → List Token → Prop
  | relabeled
      {production : Production}
      {left right : List Token}
      (hSame : left.map r.apply = right.map r.apply) :
      Rearranged r production left right
  | permuted
      {group : Section}
      {left right : List (List Token)}
      {close other : Token}
      (hPermutes : group.Permutes r left right)
      (hClose : close.closes group.closeTag.text)
      (hOther : other.closes group.closeTag.text) :
      Rearranged r (.ofSection group)
        (left.flatten ++ [close]) (right.flatten ++ [other])
  | within
      {group : Section}
      {before behind : List (List Token)}
      {opener : Token}
      {tag : Tag}
      {child : Child}
      {inside changed : List Token}
      {part : Fragment}
      {close : Token}
      (hBefore : ∀ part ∈ before, (group.entryOf? part).isSome)
      (hBehind : ∀ part ∈ behind, (group.entryOf? part).isSome)
      (hOpens : opener.opens tag.text)
      (hChild : group.child? tag = some child)
      (hInside :
        run child.production.id inside = .ok (part, []))
      (hChanged :
        Rearranged r child.production inside changed)
      (hClose : close.closes group.closeTag.text) :
      Rearranged r (.ofSection group)
        ((before ++ (opener :: inside) :: behind).flatten ++
          [close])
        ((before ++ (opener :: changed) :: behind).flatten ++
          [close])
  | trans
      {production : Production}
      {left middle right : List Token}
      (hFirst : Rearranged r production left middle)
      (hSecond : Rearranged r production middle right) :
      Rearranged r production left right

/-
  What is rearranged is read as the same fragment, up to the
  relabeling. The induction is on the changes.
-/
theorem Production.Rearranged.run
    {r : Relabel}
    {production : Production}
    {left right : List Token}
    (hRearranged : production.Rearranged r left right)
    {fragment : Fragment}
    (hRun :
      Production.run production.id left =
        .ok (fragment, [])) :
    ∃ found,
      Production.run production.id right = .ok (found, []) ∧
        found.relabel r = fragment.relabel r := by
  induction hRearranged generalizing fragment with
  | relabeled hSame =>
      have hStart := run_relabel r hRun
      rw [hSame] at hStart
      rcases run_of_relabel r hStart with
        ⟨found, rest, hFound, hFragment, hRest⟩
      rw [List.map_eq_nil_iff.mp hRest] at hFound
      exact ⟨found, hFound, hFragment⟩
  | permuted hPermutes hClose hOther =>
      exact hPermutes.run hClose hOther hRun
  | within hBefore hBehind hOpens hChild hInside _ hClose ih =>
      rcases ih hInside with ⟨other, hChanged, hSame⟩
      exact Section.run_within r hBefore hBehind hOpens hChild
        hInside hChanged hSame hClose hRun
  | trans _ _ ihFirst ihSecond =>
      rcases ihFirst hRun with ⟨found, hFound, hSame⟩
      rcases ihSecond hFound with ⟨last, hLast, hAgain⟩
      exact ⟨last, hLast, hAgain.trans hSame⟩

/- The inside of a trait section is read as its declaration. -/
theorem TraitDecl.ofTokens_cons_eq_ok_iff
    {opener : Token}
    (hOpens : opener.opens "trait")
    {inside : List Token}
    {decl : TraitDecl} :
    ofTokens (opener :: inside) = .ok decl ↔
      Production.run Section.trait.id inside =
        .ok (.trait decl, []) := by
  have hId :
      Section.trait.id = (Production.ofSection .trait).id := rfl
  rw [hId, Production.run_eq_ok_iff]
  constructor
  · intro hTokens
    rcases derivedFrom_of_ofTokens hTokens with
      ⟨first, rest, hSplit, _, hDerives⟩
    cases hSplit
    exact ⟨inside, (List.append_nil _).symm, hDerives⟩
  · rintro ⟨all, hAll, hDerives⟩
    rw [List.append_nil] at hAll
    subst hAll
    exact ofTokens_of_derivedFrom
      ⟨opener, inside, rfl, hOpens, hDerives⟩

/- A trait that is rearranged declares the same. -/
theorem TraitDecl.ofTokens_of_rearranged
    {r : Relabel}
    {opener other : Token}
    (hSame : opener.Same other)
    {left right : List Token}
    (hRearranged :
      (Production.ofSection .trait).Rearranged r left right)
    {decl : TraitDecl}
    (hTokens : ofTokens (opener :: left) = .ok decl) :
    ∃ found,
      ofTokens (other :: right) = .ok found ∧
        found.relabel r = decl.relabel r := by
  have hOpens : opener.opens "trait" := by
    rcases derivedFrom_of_ofTokens hTokens with
      ⟨_, _, hSplit, hOpens, _⟩
    cases hSplit
    exact hOpens
  have hOther : other.opens "trait" := by
    have hBare :
        Relabel.baring.apply opener =
          Relabel.baring.apply other := hSame
    rw [← other.opens_relabel .baring, ← hBare,
      opener.opens_relabel .baring]
    exact hOpens
  have hRun := (ofTokens_cons_eq_ok_iff hOpens).mp hTokens
  rcases hRearranged.run hRun with ⟨fragment, hFound, hLabels⟩
  cases fragment with
  | trait found =>
      exact ⟨found,
        (ofTokens_cons_eq_ok_iff hOther).mpr hFound,
        Fragment.trait.inj hLabels⟩
  | _ => cases hLabels

/-
  Parts in another order, with their own tokens, are read as
  the very same fragment.
-/
theorem Section.run_of_perm
    {group : Section}
    {left right : List (List Token)}
    (hLeft : ∀ part ∈ left, (group.entryOf? part).isSome)
    (hPerm : left.Perm right)
    (hOrder :
      ∀ tag child,
        group.child? tag = some child →
          child.repeated = true →
            left.filter (group.field? · = some child.field) =
              right.filter (group.field? · = some child.field))
    {close other : Token}
    (hClose : close.closes group.closeTag.text)
    (hOther : other.closes group.closeTag.text)
    {after later : List Token}
    {fragment : Fragment}
    (hRun :
      Production.run group.id (left.flatten ++ close :: after) =
        .ok (fragment, after)) :
    Production.run group.id (right.flatten ++ other :: later) =
      .ok (fragment, later) := by
  refine run_of_entries hLeft ?_ (hPerm.filterMap _) ?_ hClose
    hOther hRun
  · intro part hPart
    exact hLeft part (hPerm.mem_iff.mpr hPart)
  · intro tag child hChild hRepeated
    rw [values_of_parts, values_of_parts,
      hOrder tag child hChild hRepeated]

/-
  The parts of a section may be put into another order. With
  their own tokens, they are read as the very same fragment, and
  what follows does not matter. With other places, and at every
  depth, the fragment is the same up to those. A text whose
  trait is rearranged is printed as before, under any layout,
  when the gaps inside the parts are the same.
-/
theorem Section.rearrangement :
    (∀ (group : Section)
        (left right : List (List Token))
        (close other : Token)
        (after later : List Token)
        (fragment : Fragment),
      (∀ part ∈ left, (group.entryOf? part).isSome) →
        left.Perm right →
          (∀ tag child,
            group.child? tag = some child →
              child.repeated = true →
                left.filter
                    (group.field? · = some child.field) =
                  right.filter
                    (group.field? · = some child.field)) →
            close.closes group.closeTag.text →
              other.closes group.closeTag.text →
                Production.run group.id
                    (left.flatten ++ close :: after) =
                    .ok (fragment, after) →
                  Production.run group.id
                      (right.flatten ++ other :: later) =
                    .ok (fragment, later)) ∧
    (∀ (production : Production)
        (r : Relabel)
        (left right : List Token)
        (fragment : Fragment),
      production.Rearranged r left right →
        Production.run production.id left =
            .ok (fragment, []) →
          ∃ found,
            Production.run production.id right =
                .ok (found, []) ∧
              found.relabel r = fragment.relabel r ∧
              fragment.Same found) ∧
    (∀ (r : Relabel)
        (file place : Option String)
        (text source : String)
        (opener other : Token)
        (left right : List Token)
        (decl : TraitDecl),
      Token.ofText file text = .ok (opener :: left) →
        Token.ofText place source = .ok (other :: right) →
          opener.Same other →
            (Production.ofSection .trait).Rearranged r left
                right →
              TraitDecl.ofText file text = .ok decl →
                ∃ found,
                  TraitDecl.ofText place source = .ok found ∧
                    decl.bare = found.bare ∧
                    (r.KeepsGaps →
                      ∀ layout,
                        decl.render layout =
                          found.render layout)) := by
  refine ⟨?_, ?_, ?_⟩
  · intro group left right close other after later fragment
      hLeft hPerm hOrder hClose hOther hRun
    exact run_of_perm hLeft hPerm hOrder hClose hOther hRun
  · intro production r left right fragment hRearranged hRun
    rcases hRearranged.run hRun with ⟨found, hFound, hLabels⟩
    refine ⟨found, hFound, hLabels, ?_⟩
    rw [Fragment.Same, ← fragment.bare_relabel r,
      ← found.bare_relabel r, hLabels]
  · intro r file place text source opener other left right decl
      hText hSource hSame hRearranged hDecl
    have hTokens :
        TraitDecl.ofTokens (opener :: left) = .ok decl := by
      rw [← hDecl, TraitDecl.ofText, readTokens, hText]
    rcases TraitDecl.ofTokens_of_rearranged hSame hRearranged
        hTokens with
      ⟨found, hFound, hLabels⟩
    refine ⟨found, ?_, ?_, ?_⟩
    · rw [← hFound, TraitDecl.ofText, readTokens, hSource]
    · rw [← decl.bare_relabel r, ← found.bare_relabel r,
        hLabels]
    · intro hGaps layout
      rw [← TraitDecl.render_relabel hGaps decl layout,
        ← TraitDecl.render_relabel hGaps found layout, hLabels]

/-
  A name and a mark that change places, once as they are and
  once in a text where the gap moves with them.
-/
theorem Section.rearrangement_name_and_mark :
    let mark : Token := ⟨.emptyTag, "<unsafe/>", false, {}⟩
    let name : List Token :=
      [.ofOpenTag "name", ⟨.ident, "A", false, {}⟩,
        .ofCloseTag "name"]
    let close : Token := .ofCloseTag "trait"
    (∃ fragment,
      Production.run "trait" ([name, [mark]].flatten ++ [close]) =
          .ok (fragment, []) ∧
        Production.run "trait"
            ([[mark], name].flatten ++ [close, mark]) =
          .ok (fragment, [mark])) ∧
    (∃ decl found,
      TraitDecl.ofText none
          "<trait> <name>A</name><unsafe/></trait>" =
          .ok decl ∧
        TraitDecl.ofText none
            "<trait> <unsafe/><name>A</name></trait>" =
          .ok found ∧
        ∀ layout, decl.render layout = found.render layout) := by
  intro mark name close
  -- The tokens of the two texts, at their columns.
  let put (kind : Kind) (text : String) (spaced : Bool)
      (column : Nat) : Token :=
    ⟨kind, text, spaced,
      .between none ⟨1, column⟩ ⟨1, column + text.length⟩⟩
  let opener := put .openTag "<trait>" false 1
  let closer := put .closeTag "</trait>" false 32
  let firstName :=
    [put .openTag "<name>" true 9, put .ident "A" false 15,
      put .closeTag "</name>" false 16]
  let firstMark := put .emptyTag "<unsafe/>" false 23
  let secondMark := put .emptyTag "<unsafe/>" true 9
  let secondName :=
    [put .openTag "<name>" false 18, put .ident "A" false 24,
      put .closeTag "</name>" false 25]
  have hMark :
      ∀ flag : Token, flag.Same mark →
        Section.trait.field? [flag] = none := by
    intro flag hSame
    have hBare :
        Section.trait.field? [flag.bare] = none := by
      rw [hSame]
      decide
    rw [← Section.field?_relabel .baring]
    exact hBare
  rcases Section.rearrangement with ⟨hRuns, _, hTexts⟩
  constructor
  · have hParts :
        ∀ part ∈ [name, [mark]],
          (Section.trait.entryOf? part).isSome := by
      decide +kernel
    have hRun :
        Production.run Section.trait.id
            ([name, [mark]].flatten ++ [close]) =
          .ok
            (.trait
              { name := ⟨.ident, "A", false, {}⟩
                isUnsafe := true },
              []) := by
      decide +kernel
    have hPerm : [name, [mark]].Perm [[mark], name] :=
      .swap _ _ []
    have hClose : close.closes Section.trait.closeTag.text := by
      decide
    have hNext :=
      hRuns .trait [name, [mark]] [[mark], name] close close []
        [mark] _ hParts hPerm
        (by intros; simp [List.filter_cons, hMark mark rfl])
        hClose hClose hRun
    exact ⟨_, hRun, hNext⟩
  · have hText :
        Token.ofText none
            "<trait> <name>A</name><unsafe/></trait>" =
          .ok (opener ::
            ([firstName, [firstMark]].flatten ++ [closer])) := by
      decide +kernel
    have hSource :
        Token.ofText none
            "<trait> <unsafe/><name>A</name></trait>" =
          .ok (opener ::
            ([[secondMark], secondName].flatten ++
              [closer])) := by
      decide +kernel
    have hFields :
        Section.trait.field? secondName =
          Section.trait.field? firstName := by
      decide +kernel
    have hNames :
        Relabel.placeless.seen secondName =
          Relabel.placeless.seen firstName := rfl
    have hMarks :
        Relabel.placeless.seen [secondMark] =
          Relabel.placeless.seen [firstMark] := rfl
    have hParts :
        ∀ part ∈ [firstName, [firstMark]],
          (Section.trait.entryOf? part).isSome := by
      decide +kernel
    have hPermutes :
        Section.trait.Permutes .placeless
          [firstName, [firstMark]]
          [[secondMark], secondName] := by
      refine ⟨hParts, ?_, ?_⟩
      · rw [List.map_cons, List.map_singleton, List.map_cons,
          List.map_singleton, hNames, hMarks]
        exact .swap _ _ []
      · intro _ child _ _
        by_cases hField :
            Section.trait.field? firstName = some child.field
        · simp [hMark firstMark rfl, hMark secondMark rfl,
            hFields, hField, hNames]
        · simp [hMark firstMark rfl, hMark secondMark rfl,
            hFields, hField]
    have hDecl :
        ∃ decl,
          TraitDecl.ofText none
              "<trait> <name>A</name><unsafe/></trait>" =
            .ok decl :=
      ⟨{ name := put .ident "A" false 15, isUnsafe := true },
        by decide +kernel⟩
    rcases hDecl with ⟨decl, hDecl⟩
    rcases hTexts .placeless none none _ _ opener opener _ _
        decl hText hSource rfl
        (.permuted hPermutes (by decide) (by decide)) hDecl with
      ⟨found, hFound, _, hRender⟩
    exact ⟨decl, found, hDecl, hFound,
      hRender Relabel.keepsGaps_placeless⟩

end TraitMarkup
