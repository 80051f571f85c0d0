import TraitMarkup.Proofs.Refusal
import TraitMarkup.Proofs.Spacing

/-
  Gaps and places have no say in what tokens mean.

  Two token lists that agree in kinds and texts are relabelings
  of one list, in which each token has its index for a place. A
  reader that goes along with every relabeling ends alike on
  both: with the same result, or with the same failure at the
  same index. Productions and whole traits are read by such
  readers.

  Key definitions include:
    * `Failure.CarriedBy`
    * `Relabel.Carries`
    * `Relabel.Uniform`
    * `Failure.Alike`
    * `EndsAlike`

  Main declarations:
    * `Fragment.bare_relabel`
    * `Relabel.Uniform.mem_of_rejected`
    * `Relabel.Uniform.endsAlike`
    * `Relabel.Uniform.endsAlike_of_gaps`
    * `Production.uniform_run`
    * `TraitDecl.uniform_ofTokens`
    * `Token.read_alike`
-/

namespace TraitMarkup

------------------------------------------------------------
-- Bare Forms
------------------------------------------------------------

section Bare

variable (r : Relabel)

@[simp] theorem Token.bare_relabel
    (token : Token) :
    (r.apply token).bare = token.bare := by
  simp [bare]

@[simp] theorem Code.bare_relabel
    (code : Code) :
    (code.relabel r).bare = code.bare := by
  simp [bare, relabel, Function.comp_def]

@[simp] theorem TraitBound.bare_relabel
    (bound : TraitBound) :
    (bound.relabel r).bare = bound.bare := by
  simp [bare, relabel]

@[simp] theorem Bound.bare_relabel
    (bound : Bound) :
    (bound.relabel r).bare = bound.bare := by
  cases bound <;> simp [bare, relabel, Function.comp_def]

@[simp] theorem GenericParam.bare_relabel
    (param : GenericParam) :
    (param.relabel r).bare = param.bare := by
  cases param <;> simp [bare, relabel, Function.comp_def]

@[simp] theorem Generics.bare_relabel
    (generics : Generics) :
    (generics.relabel r).bare = generics.bare := by
  simp [bare, relabel, Function.comp_def]

@[simp] theorem TypeClause.bare_relabel
    (clause : TypeClause) :
    (clause.relabel r).bare = clause.bare := by
  simp [bare, relabel, Function.comp_def]

@[simp] theorem WhereClause.bare_relabel
    (clause : WhereClause) :
    (clause.relabel r).bare = clause.bare := by
  cases clause <;> simp [bare, relabel, Function.comp_def]

@[simp] theorem AssocType.bare_relabel
    (item : AssocType) :
    (item.relabel r).bare = item.bare := by
  simp [bare, relabel, Function.comp_def]

@[simp] theorem AssocConst.bare_relabel
    (item : AssocConst) :
    (item.relabel r).bare = item.bare := by
  simp [bare, relabel, Function.comp_def]

@[simp] theorem FnParam.bare_relabel
    (param : FnParam) :
    (param.relabel r).bare = param.bare := by
  simp [bare, relabel]

@[simp] theorem Qualifiers.bare_relabel
    (qualifiers : Qualifiers) :
    (qualifiers.relabel r).bare = qualifiers.bare := by
  simp [bare, relabel, Function.comp_def]

@[simp] theorem AssocFn.bare_relabel
    (item : AssocFn) :
    (item.relabel r).bare = item.bare := by
  simp [bare, relabel, Function.comp_def]

@[simp] theorem TraitDecl.bare_relabel
    (decl : TraitDecl) :
    (decl.relabel r).bare = decl.bare := by
  simp [bare, relabel, Function.comp_def]

mutual

theorem Tree.bare_relabel :
    (tree : Tree) → (tree.relabel r).bare = tree.bare
  | .nothing => rfl
  | .flag _ => rfl
  | .token t => by simp [Tree.relabel, Tree.bare]
  | .list items => by
      rw [Tree.relabel, Tree.bare, Tree.bareItems_relabel items,
        Tree.bare]
  | .node name parts => by
      rw [Tree.relabel, Tree.bare, Tree.bareParts_relabel parts,
        Tree.bare]

theorem Tree.bareItems_relabel :
    (items : List Tree) →
      Tree.bareItems (Tree.relabelItems r items) =
        Tree.bareItems items
  | [] => rfl
  | item :: rest => by
      rw [Tree.relabelItems, Tree.bareItems,
        Tree.bare_relabel item, Tree.bareItems_relabel rest,
        Tree.bareItems]

theorem Tree.bareParts_relabel :
    (parts : List (String × Tree)) →
      Tree.bareParts (Tree.relabelParts r parts) =
        Tree.bareParts parts
  | [] => rfl
  | (key, part) :: rest => by
      rw [Tree.relabelParts, Tree.bareParts,
        Tree.bare_relabel part, Tree.bareParts_relabel rest,
        Tree.bareParts]

end

/- A relabeled fragment is the same fragment. -/
theorem Fragment.bare_relabel
    (fragment : Fragment) :
    (fragment.relabel r).bare = fragment.bare := by
  cases fragment <;>
    simp [bare, relabel, Tree.bare_relabel, Function.comp_def]

end Bare

------------------------------------------------------------
-- Readers That Go Along
------------------------------------------------------------

/- The kind of a failure with its tokens relabeled. -/
def Failure.Kind.relabel
    (r : Relabel) :
    Failure.Kind → Failure.Kind
  | duplication prior =>
      duplication (prior.map (Fragment.relabel r))
  | kind => kind

/- The kind of a failure without gaps and places. -/
def Failure.Kind.bare : Failure.Kind → Failure.Kind
  | duplication prior => duplication (prior.map Fragment.bare)
  | kind => kind

@[simp] theorem Failure.Kind.bare_relabel
    (r : Relabel)
    (kind : Failure.Kind) :
    (kind.relabel r).bare = kind.bare := by
  cases kind <;>
    simp [relabel, bare, Fragment.bare_relabel,
      Function.comp_def]

/-
  The failure `other` is a failure with its tokens relabeled.
  Its wording is the same when the gaps are kept.
-/
structure Failure.CarriedBy
    (r : Relabel)
    (failure other : Failure) : Prop where
  kind : other.kind = failure.kind.relabel r
  rule : other.rule = failure.rule
  callers : other.callers = failure.callers
  token : other.token = failure.token.map r.apply
  message : r.KeepsGaps → other.message = failure.message

/- A reading and the same one with the tokens relabeled. -/
inductive Relabel.Carries
    {α : Type}
    (r : Relabel)
    (carry : α → α) :
    Except Fault α → Except Fault α → Prop
  | ok
      (result : α) :
      Carries r carry (.ok result) (.ok (carry result))
  | rejected
      {failure other : Failure}
      (hCarried : failure.CarriedBy r other) :
      Carries r carry (.error (.rejected failure))
        (.error (.rejected other))

/- The reader goes along with every relabeling. -/
def Relabel.Uniform
    {α : Type}
    (carry : Relabel → α → α)
    (reader : List Token → Except Fault α) : Prop :=
  ∀ r tokens,
    Carries r (carry r) (reader tokens)
      (reader (tokens.map r.apply))

/- A failure for a cause is carried to the relabeled cause. -/
theorem Production.carriedBy_relabel
    (r : Relabel)
    (production : Production)
    (path : List String)
    (cause : Cause) :
    (production.failure path cause).CarriedBy r
      (production.failure path (cause.relabel r)) where
  kind := by cases cause <;> rfl
  rule := rfl
  callers := rfl
  token := cause.token?_relabel r
  message := by
    intro hGaps
    simp only [failure, cause.text_relabel r hGaps]

/- Productions are read along with a relabeling. -/
theorem Production.parse_carries
    (r : Relabel)
    (production : Production)
    (path : List String)
    (cursor : Cursor) :
    r.Carries r.carryRead (production.parse path cursor)
      (production.parse path (cursor.relabel r)) := by
  have hAgrees := production.parse_relabel r path cursor
  generalize hLeft : production.parse path cursor = left
    at hAgrees
  generalize production.parse path (cursor.relabel r) = right
    at hAgrees
  cases hAgrees with
  | ok result => exact .ok result
  | rejected found callers cause =>
      exact .rejected (found.carriedBy_relabel r callers cause)
  | lacking lack =>
      -- Nothing lacks in what was read by a production.
      rcases fails_of_parse hLeft with ⟨_, hFault, _⟩
      cases hFault

/- What a production reads, and the tokens it leaves. -/
def Relabel.carryRun
    (r : Relabel) :
    Fragment × List Token → Fragment × List Token
  | (fragment, rest) =>
      (fragment.relabel r, rest.map r.apply)

/- Every production is run along with a relabeling. -/
theorem Production.uniform_run
    (production : Production) :
    Relabel.Uniform Relabel.carryRun (run production.id) := by
  intro r tokens
  have hParse :=
    production.parse_carries r [] (.ofTokens tokens)
  rw [← Step.run_enter_nil, ← Step.run_enter_nil] at hParse
  change
    r.Carries r.carryRead
      (Step.enter production.id (.ofTokens tokens) []).run
      (Step.enter production.id
        (.ofTokens (tokens.map r.apply)) []).run at hParse
  unfold run
  generalize
    (Step.enter production.id (.ofTokens tokens) []).run = left
    at hParse ⊢
  generalize
    (Step.enter production.id (.ofTokens (tokens.map r.apply))
      []).run = right at hParse ⊢
  cases hParse with
  | ok result => exact .ok (result.1, result.2.rest)
  | rejected hCarried => exact .rejected hCarried

/- A failure outside the trait goes along when its text does. -/
theorem TraitDecl.carries_outside
    (r : Relabel)
    {message other : String}
    (token : Option Token)
    (hMessage : r.KeepsGaps → other = message) :
    r.Carries (TraitDecl.relabel r)
      (.error (outside message token))
      (.error (outside other (token.map r.apply))) :=
  .rejected ⟨rfl, rfl, rfl, rfl, hMessage⟩

/- What a run ends with goes along with a relabeling. -/
theorem TraitDecl.carries_ofResult
    (r : Relabel)
    (decl : TraitDecl)
    (cursor : Cursor) :
    r.Carries (TraitDecl.relabel r)
      (ofResult (.trait decl, cursor))
      (ofResult (r.carryRead (.trait decl, cursor))) := by
  rcases cursor with ⟨before, rest⟩
  cases rest with
  | nil => exact .ok decl
  | cons token rest =>
      refine carries_outside r (some token) ?_
      intro hGaps
      have hRender := Code.render_relabel hGaps (token :: rest)
      rw [Code.relabel, List.map_cons] at hRender
      rw [hRender]

/- Whole traits are read along with a relabeling. -/
theorem TraitDecl.uniform_ofTokens :
    Relabel.Uniform TraitDecl.relabel ofTokens := by
  intro r tokens
  cases tokens with
  | nil => exact carries_outside r none (fun _ => rfl)
  | cons token rest =>
      by_cases hOpens : token.opens "trait"
      · have hOther : (r.apply token).opens "trait" := by
          rwa [token.opens_relabel r]
        have hParse :=
          (Production.ofSection .trait).parse_carries r []
            ⟨[token], rest⟩
        rw [List.map_cons, ofTokens_cons hOpens,
          ofTokens_cons hOther]
        change
          r.Carries r.carryRead
            ((Production.ofSection .trait).parse []
              ⟨[token], rest⟩)
            ((Production.ofSection .trait).parse []
              ⟨[r.apply token], rest.map r.apply⟩) at hParse
        generalize hLeft :
          (Production.ofSection .trait).parse []
            ⟨[token], rest⟩ = left at hParse ⊢
        generalize
          (Production.ofSection .trait).parse []
            ⟨[r.apply token], rest.map r.apply⟩ = right
          at hParse ⊢
        cases hParse with
        | rejected hCarried => exact .rejected hCarried
        | ok result =>
            rcases result with ⟨fragment, cursor⟩
            rcases Production.derives_of_parse hLeft with
              ⟨inside, _, hDerives⟩
            have hYields :=
              Production.yields_of_derives hDerives
            cases fragment <;> cases hYields
            exact carries_ofResult r _ cursor
      · have hOutside :
            ¬ token.opens Section.trait.closeTag.text :=
          hOpens
        have hOutsideToo :
            ¬ (r.apply token).opens
              Section.trait.closeTag.text := by
          rwa [token.opens_relabel r]
        rw [List.map_cons, ofTokens, if_neg hOutside,
          ofTokens, if_neg hOutsideToo, r.text_apply]
        exact carries_outside r (some token) (fun _ => rfl)

------------------------------------------------------------
-- Tokens With Their Indices
------------------------------------------------------------

/- The token with its index for a place. -/
def Token.numbered
    (index : Nat)
    (token : Token) :
    Token :=
  { token.bare with span := { line := some index } }

/- The tokens with their indices for places. -/
def Code.numbered
    (code : Code) :
    Code :=
  code.bare.mapIdx Token.numbered

/- The index of a token that has one. -/
def Token.index
    (token : Token) :
    Nat :=
  (token.span.line.getD 0).toNat

/- The token of the code with this index, if it is the same. -/
def Token.restored
    (code : Code)
    (token : Token) :
    Token :=
  (code[token.index]?.filter (·.Same token)).getD token

theorem Token.same_restored
    (code : Code)
    (token : Token) :
    (token.restored code).Same token := by
  unfold restored
  cases hFound :
      code[token.index]?.filter (·.Same token) with
  | none => rfl
  | some found =>
      rcases Option.filter_eq_some_iff.mp hFound with
        ⟨_, hSame⟩
      simpa using hSame

/-
  The relabeling that gives numbered tokens the gaps and the
  places that they have in the code.
-/
def Relabel.restoring
    (code : Code) :
    Relabel where
  apply := Token.restored code
  kind_apply := fun token =>
    (Token.same_iff.mp (token.same_restored code)).1
  text_apply := fun token =>
    (Token.same_iff.mp (token.same_restored code)).2

/- Numbered tokens are restored to the code they came from. -/
theorem Code.map_restoring_numbered
    (code : Code) :
    code.numbered.map (Relabel.restoring code).apply =
      code := by
  apply List.ext_getElem?
  intro i
  simp only [Code.numbered, Code.bare, List.getElem?_map,
    List.getElem?_mapIdx]
  cases hToken : code[i]? with
  | none => rfl
  | some token =>
      have hIndex : (token.bare.numbered i).index = i := rfl
      have hSame : token.Same (token.bare.numbered i) := rfl
      simp [Relabel.restoring, Token.restored, hIndex, hToken,
        Option.filter, hSame]

------------------------------------------------------------
-- Failures Are At Tokens That Were Read
------------------------------------------------------------

/-
  The relabeling that changes the gaps of all tokens but those
  of the stream.
-/
def Relabel.fixing
    (stream : List Token) :
    Relabel where
  apply := fun token =>
    if token ∈ stream then token
    else { token with spaced := !token.spaced }
  kind_apply := fun token => by split <;> rfl
  text_apply := fun token => by split <;> rfl

namespace Relabel.Uniform

variable {α : Type}
variable {carry : Relabel → α → α}
variable {reader : List Token → Except Fault α}

/-
  A reader that goes along fails at a token of its stream: any
  other token would not stay as it is when the stream does.
-/
theorem mem_of_rejected
    (hUniform : Uniform carry reader)
    {stream : List Token}
    {failure : Failure}
    (hReader : reader stream = .error (.rejected failure))
    {token : Token}
    (hToken : failure.token = some token) :
    token ∈ stream := by
  have hFixed :
      stream.map (Relabel.fixing stream).apply = stream := by
    calc
      stream.map (Relabel.fixing stream).apply
          = stream.map id :=
            List.map_congr_left fun token hMember =>
              if_pos hMember
      _ = stream := List.map_id stream
  have hCarries := hUniform (Relabel.fixing stream) stream
  rw [hFixed, hReader] at hCarries
  cases hCarries with
  | rejected hCarried =>
      have hSame := hCarried.token
      rw [hToken, Option.map_some, Option.some.injEq] at hSame
      by_contra hOther
      have hSpaced := congrArg Token.spaced hSame
      simp [Relabel.fixing, hOther] at hSpaced

end Relabel.Uniform

------------------------------------------------------------
-- Readings That End Alike
------------------------------------------------------------

/-
  Failures on two streams that differ in gaps and places alone:
  of the same kind, with the same particulars, and at tokens
  with the same index, if at any.
-/
structure Failure.Alike
    (left right : List Token)
    (first second : Failure) : Prop where
  kind : first.kind.bare = second.kind.bare
  rule : first.rule = second.rule
  callers : first.callers = second.callers
  token :
    (first.token = none ∧ second.token = none) ∨
      ∃ (i : Nat) (token other : Token),
        left[i]? = some token ∧ right[i]? = some other ∧
          first.token = some token ∧
          second.token = some other

/- Two readings give related results or related failures. -/
inductive EndsAlike
    {α : Type}
    (results : α → α → Prop)
    (failures : Failure → Failure → Prop) :
    Except Fault α → Except Fault α → Prop
  | ok
      {first second : α}
      (hResults : results first second) :
      EndsAlike results failures (.ok first) (.ok second)
  | rejected
      {first second : Failure}
      (hFailures : failures first second) :
      EndsAlike results failures (.error (.rejected first))
        (.error (.rejected second))

/- Readings that end alike do so in a weaker sense. -/
theorem EndsAlike.mono
    {α : Type}
    {results others : α → α → Prop}
    {failures : Failure → Failure → Prop}
    {left right : Except Fault α}
    (hAlike : EndsAlike results failures left right)
    (hResults :
      ∀ first second, results first second →
        others first second) :
    EndsAlike others failures left right := by
  cases hAlike with
  | ok hFound => exact .ok (hResults _ _ hFound)
  | rejected hFound => exact .rejected hFound

namespace Relabel.Uniform

variable {α : Type}
variable {carry : Relabel → α → α}
variable {reader : List Token → Except Fault α}
variable {left right : List Token}

/- A failure on numbered tokens is alike on both streams. -/
theorem alike_of_carried
    {base : List Token}
    {r s : Relabel}
    (hLeft : base.map r.apply = left)
    (hRight : base.map s.apply = right)
    {failure first second : Failure}
    (hMember :
      ∀ token, failure.token = some token → token ∈ base)
    (hFirst : failure.CarriedBy r first)
    (hSecond : failure.CarriedBy s second) :
    first.Alike left right second where
  kind := by simp [hFirst.kind, hSecond.kind]
  rule := by rw [hFirst.rule, hSecond.rule]
  callers := by rw [hFirst.callers, hSecond.callers]
  token := by
    rw [hFirst.token, hSecond.token]
    cases hToken : failure.token with
    | none => exact .inl ⟨rfl, rfl⟩
    | some token =>
        rcases List.mem_iff_getElem?.mp
            (hMember token hToken) with
          ⟨i, hIndex⟩
        refine .inr
          ⟨i, r.apply token, s.apply token, ?_, ?_, rfl, rfl⟩
        · rw [← hLeft, List.getElem?_map, hIndex]
          rfl
        · rw [← hRight, List.getElem?_map, hIndex]
          rfl

/-
  A reader that goes along ends alike on streams that agree in
  kinds and texts: both are relabelings of their tokens with
  indices, where it is read once for both.
-/
theorem endsAlike
    (hUniform : Uniform carry reader)
    (hSame : Code.bare left = Code.bare right) :
    EndsAlike
      (fun first second =>
        ∃ r s result,
          first = carry r result ∧ second = carry s result)
      (Failure.Alike left right) (reader left)
      (reader right) := by
  have hLeft := Code.map_restoring_numbered left
  have hRight := Code.map_restoring_numbered right
  have hBase : Code.numbered right = Code.numbered left := by
    rw [Code.numbered, Code.numbered, hSame]
  rw [hBase] at hRight
  have hFirst :=
    hUniform (Relabel.restoring left) (Code.numbered left)
  have hSecond :=
    hUniform (Relabel.restoring right) (Code.numbered left)
  rw [hLeft] at hFirst
  rw [hRight] at hSecond
  generalize hReader :
    reader (Code.numbered left) = outcome at hFirst hSecond
  generalize reader left = first at hFirst ⊢
  generalize reader right = second at hSecond ⊢
  cases hFirst with
  | ok result =>
      cases hSecond
      exact .ok ⟨_, _, result, rfl, rfl⟩
  | rejected hCarried =>
      cases hSecond with
      | rejected hOther =>
          exact .rejected
            (alike_of_carried hLeft hRight
              (fun token => hUniform.mem_of_rejected hReader)
              hCarried hOther)

/-
  When the gaps agree as well, the results differ in places and
  the failures have the same wording.
-/
theorem endsAlike_of_gaps
    (hUniform : Uniform carry reader)
    (hSame :
      left.map Token.placeless = right.map Token.placeless) :
    EndsAlike
      (fun first second =>
        carry .placeless first = carry .placeless second)
      (fun first second => first.message = second.message)
      (reader left) (reader right) := by
  have hFirst := hUniform .placeless left
  have hSecond := hUniform .placeless right
  have hBase :
      left.map Relabel.placeless.apply =
        right.map Relabel.placeless.apply :=
    hSame
  rw [hBase] at hFirst
  generalize reader (right.map Relabel.placeless.apply) = base
    at hFirst hSecond
  generalize reader left = first at hFirst ⊢
  generalize reader right = second at hSecond ⊢
  cases hFirst with
  | ok result =>
      generalize hCarry :
        Except.ok (carry .placeless result) = outcome
        at hSecond
      cases hSecond with
      | ok other => exact .ok (Except.ok.inj hCarry)
      | rejected => cases hCarry
  | rejected hCarried =>
      cases hSecond with
      | rejected hOther =>
          have hGaps := Relabel.keepsGaps_placeless
          exact .rejected
            ((hCarried.message hGaps).symm.trans
              (hOther.message hGaps))

end Relabel.Uniform

------------------------------------------------------------
-- Productions And Traits
------------------------------------------------------------

/- Tokens with the same gaps are the same without places. -/
theorem Token.map_placeless_eq
    {left right : List Token}
    (hSame : Code.bare left = Code.bare right)
    (hGaps : left.map Token.spaced = right.map Token.spaced) :
    left.map placeless = right.map placeless := by
  induction left generalizing right with
  | nil =>
      cases right with
      | nil => rfl
      | cons token rest => cases hSame
  | cons token rest ih =>
      cases right with
      | nil => cases hSame
      | cons other others =>
          rcases List.cons.inj hSame with ⟨hToken, hRest⟩
          rcases List.cons.inj hGaps with ⟨hGap, hLater⟩
          rcases same_iff.mp hToken with ⟨hKind, hText⟩
          rw [List.map_cons, List.map_cons, ih hRest hLater]
          simp only [placeless, hKind, hText, hGap]

/- Declarations that differ in places are printed the same. -/
theorem TraitDecl.render_eq_of_placeless
    {first second : TraitDecl}
    (hSame :
      first.relabel .placeless = second.relabel .placeless)
    (layout : Layout) :
    first.render layout = second.render layout := by
  rw [← render_relabel Relabel.keepsGaps_placeless first,
    ← render_relabel Relabel.keepsGaps_placeless second, hSame]

/-
  Gaps and places have no say in reading. On two streams that
  agree in kinds and texts, every production and the reading of
  a whole trait give the same fragment and leave as many tokens,
  or are refused with the same kind of failure, the same rule
  and callers, at tokens with the same index. If the gaps agree,
  the failures have the same message, the fragments differ in
  places alone, and a trait is printed as the same text.
-/
theorem Token.read_alike
    (left right : List Token)
    (hSame : Code.bare left = Code.bare right) :
    (∀ production : Production,
      EndsAlike
        (fun first second =>
          first.1.Same second.1 ∧
            first.2.length = second.2.length)
        (Failure.Alike left right)
        (Production.run production.id left)
        (Production.run production.id right)) ∧
    EndsAlike
      (fun first second => first.bare = second.bare)
      (Failure.Alike left right)
      (TraitDecl.ofTokens left)
      (TraitDecl.ofTokens right) ∧
    (left.map Token.spaced = right.map Token.spaced →
      (∀ production : Production,
        EndsAlike
          (fun first second =>
            first.1.relabel .placeless =
                second.1.relabel .placeless ∧
              ∀ decl other,
                first.1 = .trait decl →
                  second.1 = .trait other →
                    ∀ layout,
                      decl.render layout =
                        other.render layout)
          (fun first second => first.message = second.message)
          (Production.run production.id left)
          (Production.run production.id right)) ∧
      EndsAlike
        (fun first second =>
          ∀ layout, first.render layout = second.render layout)
        (fun first second => first.message = second.message)
        (TraitDecl.ofTokens left)
        (TraitDecl.ofTokens right)) := by
  refine ⟨?_, ?_, ?_⟩
  · intro production
    refine (production.uniform_run.endsAlike hSame).mono ?_
    rintro _ _ ⟨r, s, result, rfl, rfl⟩
    exact ⟨by simp [Fragment.Same, Relabel.carryRun,
      Fragment.bare_relabel], by simp [Relabel.carryRun]⟩
  · refine
      (TraitDecl.uniform_ofTokens.endsAlike hSame).mono ?_
    rintro _ _ ⟨r, s, result, rfl, rfl⟩
    rw [TraitDecl.bare_relabel, TraitDecl.bare_relabel]
  · intro hGaps
    have hPlaceless := map_placeless_eq hSame hGaps
    constructor
    · intro production
      refine
        (production.uniform_run.endsAlike_of_gaps
          hPlaceless).mono ?_
      rintro ⟨fragment, rest⟩ ⟨found, later⟩ hCarry
      have hFragment := congrArg Prod.fst hCarry
      refine ⟨hFragment, ?_⟩
      rintro decl other rfl rfl layout
      exact TraitDecl.render_eq_of_placeless
        (Fragment.trait.inj hFragment) layout
    · refine
        (TraitDecl.uniform_ofTokens.endsAlike_of_gaps
          hPlaceless).mono ?_
      intro first second hCarry layout
      exact TraitDecl.render_eq_of_placeless hCarry layout

/-
  A second name in a trait: it is refused at the same index
  without the gaps, and in the same words at another place.
-/
theorem Token.read_alike_second_name :
    let word : Token := ⟨.ident, "Visit", true, {}⟩
    let stream : List Token :=
      [.ofOpenTag "trait", .ofOpenTag "name", word,
        .ofCloseTag "name", .ofOpenTag "name"]
    let dense := stream.map ({ · with spaced := false })
    let moved :=
      stream.map ({ · with span := { line := some 7 } })
    (Code.bare stream = Code.bare dense ∧
        EndsAlike (fun first second => first.bare = second.bare)
          (Failure.Alike stream dense)
          (TraitDecl.ofTokens stream)
          (TraitDecl.ofTokens dense)) ∧
      (stream.map Token.spaced = moved.map Token.spaced ∧
        EndsAlike
          (fun first second =>
            ∀ layout,
              first.render layout = second.render layout)
          (fun first second => first.message = second.message)
          (TraitDecl.ofTokens stream)
          (TraitDecl.ofTokens moved)) := by
  intro word stream dense moved
  have hDense : Code.bare stream = Code.bare dense := by decide
  have hMoved : Code.bare stream = Code.bare moved := by decide
  have hGaps :
      stream.map Token.spaced = moved.map Token.spaced := by
    decide
  exact
    ⟨⟨hDense, (read_alike stream dense hDense).2.1⟩,
      hGaps, ((read_alike stream moved hMoved).2.2 hGaps).2⟩

end TraitMarkup
