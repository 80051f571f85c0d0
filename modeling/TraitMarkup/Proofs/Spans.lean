import TraitMarkup.Proofs.Acceptance

/-
  The spans of a declaration.

  A declaration is made of tokens alone: single ones, such as
  names and lifetimes, and runs of them, such as types. Each of
  these is a span here. The spans are listed in the order in
  which they are printed.

  Whatever is read from tokens has only spans that stand in the
  tokens, each in one piece.

  Key definitions include:
    * `Token.alone`
    * `TraitDecl.spans` and its like
    * `Fragment.spans`
    * `Draft.Offers`

  Main declarations:
    * `Section.offers_of_forms`
    * `Production.infix_of_derives`
    * `TraitDecl.infix_of_ofTokens`
-/

namespace TraitMarkup

------------------------------------------------------------
-- Spans In The Order Of Printing
------------------------------------------------------------

/- The token as a span of its own. -/
def Token.alone
    (token : Token) :
    Code :=
  [token]

/- A token of its own is printed as its text. -/
theorem Token.render_alone
    (token : Token) :
    token.alone.render = token.text := by
  simp [Token.alone, Code.render]

/- The span of a path. -/
def TraitBound.spans
    (bound : TraitBound) :
    List Code :=
  [bound.path]

/- The spans of a bound. -/
def Bound.spans : Bound → List Code
  | trait bound => bound.spans
  | lifetime name => [name.alone]
  | forAll lifetimes bound =>
      lifetimes.map Token.alone ++ bound.spans

/- The spans of a parameter. -/
def GenericParam.spans : GenericParam → List Code
  | lifetime name bounds =>
      name.alone :: bounds.map Token.alone
  | type name bounds =>
      name.alone :: bounds.flatMap Bound.spans
  | const name valueType => [name.alone, valueType]

/- The spans of parameters and requirements. -/
def Generics.spans
    (generics : Generics) :
    List Code :=
  generics.params.flatMap GenericParam.spans
    ++ generics.requirements.flatMap TraitBound.spans

/- The spans of a clause on a type. -/
def TypeClause.spans
    (clause : TypeClause) :
    List Code :=
  clause.type :: clause.bounds.flatMap Bound.spans

/- The spans of a where clause. -/
def WhereClause.spans : WhereClause → List Code
  | lifetime name bounds =>
      name.alone :: bounds.map Token.alone
  | type clause => clause.spans
  | forAll lifetimes clause =>
      lifetimes.map Token.alone ++ clause.spans

/- The spans of an associated type. -/
def AssocType.spans
    (item : AssocType) :
    List Code :=
  item.name.alone ::
    (item.params.flatMap GenericParam.spans
      ++ item.bounds.flatMap TraitBound.spans
      ++ item.clauses.flatMap WhereClause.spans)

/- The spans of an associated constant. -/
def AssocConst.spans
    (item : AssocConst) :
    List Code :=
  item.name.alone :: item.type :: item.value.toList

/- The spans of an argument. -/
def FnParam.spans
    (param : FnParam) :
    List Code :=
  [param.arg, param.type]

/- The span of an ABI, if there is one. -/
def Qualifiers.spans
    (qualifiers : Qualifiers) :
    List Code :=
  qualifiers.abi.toList.map Token.alone

/- The spans of an associated function. -/
def AssocFn.spans
    (item : AssocFn) :
    List Code :=
  item.qualifiers.spans
    ++ item.name.alone ::
      (item.params.flatMap GenericParam.spans
        ++ item.args.flatMap FnParam.spans
        ++ item.ret.toList
        ++ item.clauses.flatMap WhereClause.spans
        ++ item.body.toList)

namespace TraitDecl

/- The spans in front of the body of a trait. -/
def frontSpans
    (decl : TraitDecl) :
    List Code :=
  decl.vis.toList
    ++ decl.name.alone ::
      (decl.params.flatMap GenericParam.spans
        ++ decl.requirements.flatMap TraitBound.spans
        ++ decl.clauses.flatMap WhereClause.spans)

/- The spans of the items of a trait. -/
def itemSpans
    (decl : TraitDecl) :
    List Code :=
  decl.types.flatMap AssocType.spans
    ++ decl.consts.flatMap AssocConst.spans
    ++ decl.fns.flatMap AssocFn.spans

/- The spans of a declaration. -/
def spans
    (decl : TraitDecl) :
    List Code :=
  decl.frontSpans ++ decl.itemSpans

end TraitDecl

/- The spans of a fragment. A loose tree is not looked into. -/
def Fragment.spans : Fragment → List Code
  | nothing => []
  | token t => [t.alone]
  | code c => [c]
  | bound b => b.spans
  | param p => p.spans
  | generics g => g.spans
  | clause c => c.spans
  | clauses cs => cs.flatMap WhereClause.spans
  | arg a => a.spans
  | args as => as.flatMap FnParam.spans
  | assocType item => item.spans
  | assocConst item => item.spans
  | assocFn item => item.spans
  | trait decl => decl.spans
  | loose _ => []

------------------------------------------------------------
-- Spans Of Children
------------------------------------------------------------

/- A child that is taken in keeps its spans. -/
theorem Child.mem_spans_of_adapt
    {child : Child}
    {fragment : Fragment}
    {span : Code}
    (hSpan : span ∈ (child.adapt fragment).spans) :
    span ∈ fragment.spans := by
  unfold adapt at hSpan
  split at hSpan
  · exact hSpan
  · exact hSpan
  · cases hSpan
  · exact hSpan
  · cases hSpan

/- Each of the spans is one of a child of the draft. -/
def Draft.Offers
    (draft : Draft)
    (spans : List Code) : Prop :=
  ∀ span ∈ spans,
    ∃ tag fragment,
      Entry.child tag fragment ∈ draft.entries ∧
        span ∈ fragment.spans

namespace Draft.Offers

variable {α : Type}
variable {draft : Draft}

theorem nil : draft.Offers [] :=
  List.forall_mem_nil _

theorem cons
    {span : Code}
    {spans : List Code}
    (hSpan : draft.Offers [span])
    (hSpans : draft.Offers spans) :
    draft.Offers (span :: spans) :=
  List.forall_mem_cons.mpr
    ⟨hSpan span (List.mem_singleton_self span), hSpans⟩

theorem append
    {left right : List Code}
    (hLeft : draft.Offers left)
    (hRight : draft.Offers right) :
    draft.Offers (left ++ right) :=
  List.forall_mem_append.mpr ⟨hLeft, hRight⟩

theorem flatMap
    {values : List α}
    {spans : α → List Code}
    (hValues : ∀ value ∈ values, draft.Offers (spans value)) :
    draft.Offers (values.flatMap spans) := by
  intro span hSpan
  rcases List.mem_flatMap.mp hSpan with ⟨value, hValue, hHere⟩
  exact hValues value hValue span hHere

theorem map
    {values : List α}
    {span : α → Code}
    (hValues : ∀ value ∈ values, draft.Offers [span value]) :
    draft.Offers (values.map span) := by
  intro found hFound
  rcases List.mem_map.mp hFound with ⟨value, hValue, rfl⟩
  exact hValues value hValue _ (List.mem_singleton_self _)

theorem toList
    {span : Option Code}
    (hSpan : ∀ given ∈ span, draft.Offers [given]) :
    draft.Offers span.toList := by
  cases span with
  | none => exact nil
  | some given => exact hSpan given rfl

end Draft.Offers

namespace Draft

variable {α : Type}
variable {draft : Draft}
variable {group : Section}
variable {field : Field}
variable {form : α → Fragment}

/- The spans of a value come from the child that gave it. -/
theorem offers_of_mem_values
    {value : Fragment}
    (hValue : value ∈ draft.values group field) :
    draft.Offers value.spans := by
  intro span hSpan
  rcases List.mem_filterMap.mp hValue with
    ⟨entry, hEntry, hGiven⟩
  cases entry with
  | mark tag => cases hGiven
  | child tag fragment =>
      simp only [Entry.value?] at hGiven
      split at hGiven
      · cases hGiven
      · split at hGiven
        · cases hGiven
          exact ⟨tag, fragment, hEntry,
            Child.mem_spans_of_adapt hSpan⟩
        · cases hGiven

/- The spans of all values of a field come from children. -/
theorem HasAll.offers
    {values : List α}
    (hAll : draft.HasAll group field form values) :
    ∀ value ∈ values, draft.Offers (form value).spans := by
  intro value hValue
  have hMember : form value ∈ draft.values group field := by
    rw [hAll]
    exact List.mem_map_of_mem hValue
  exact offers_of_mem_values hMember

/- The spans of a value that may be there come from a child. -/
theorem HasAtMostOne.offers
    {value : Option α}
    (hOne : draft.HasAtMostOne group field form value) :
    ∀ given ∈ value, draft.Offers (form given).spans := by
  rintro given ⟨⟩
  have hMember : form given ∈ draft.values group field := by
    rw [hOne]
    exact List.mem_singleton_self _
  exact offers_of_mem_values hMember

/- The spans of a value that is there come from a child. -/
theorem HasOne.offers
    {value : α}
    (hOne : draft.HasOne group field form value) :
    draft.Offers (form value).spans :=
  hOne.atMostOne.offers value rfl

/- Generics that may be there have spans of a child only. -/
theorem HasAtMostOne.offers_generics
    {generics : Option Generics}
    (hOne :
      draft.HasAtMostOne group field .generics generics) :
    draft.Offers
        ((generics.getD {}).params.flatMap
          GenericParam.spans) ∧
      draft.Offers
        ((generics.getD {}).requirements.flatMap
          TraitBound.spans) := by
  cases generics with
  | none => exact ⟨.nil, .nil⟩
  | some given =>
      exact List.forall_mem_append.mp (hOne.offers given rfl)

/- Clauses that may be there have spans of a child only. -/
theorem HasAtMostOne.offers_clauses
    {clauses : Option (List WhereClause)}
    (hOne :
      draft.HasAtMostOne group field .clauses clauses) :
    draft.Offers
      ((clauses.getD []).flatMap WhereClause.spans) := by
  cases clauses with
  | none => exact .nil
  | some given => exact hOne.offers given rfl

/- Arguments that may be there have spans of a child only. -/
theorem HasAtMostOne.offers_args
    {args : Option (List FnParam)}
    (hOne : draft.HasAtMostOne group field .args args) :
    draft.Offers
      ((args.getD []).flatMap FnParam.spans) := by
  cases args with
  | none => exact .nil
  | some given => exact hOne.offers given rfl

end Draft

------------------------------------------------------------
-- Spans Of Sections
------------------------------------------------------------

/- A section has no spans but those of its children. -/
theorem Section.offers_of_forms
    {group : Section}
    {draft : Draft}
    {fragment : Fragment}
    (hForms : group.Forms draft fragment) :
    draft.Offers fragment.spans := by
  cases hForms with
  | trait hName hVis _ hGenerics hParams hRequirements hClauses
      hWhere hTypes hConsts hFns =>
      have hGiven := hGenerics.offers_generics
      have hAll := hClauses.offers_clauses
      rw [← hParams, ← hRequirements] at hGiven
      rw [← hWhere] at hAll
      exact .append
        (.append (.toList hVis.offers)
          (.cons hName.offers
            (.append (.append hGiven.1 hGiven.2) hAll)))
        (.append
          (.append (.flatMap hTypes.offers)
            (.flatMap hConsts.offers))
          (.flatMap hFns.offers))
  | bounds hLifetimes hTypes hConsts hRequirements =>
      refine .append ?_ (.flatMap hRequirements.offers)
      rw [List.flatMap_append, List.flatMap_append]
      exact .append
        (.append (.flatMap hLifetimes.offers)
          (.flatMap hTypes.offers))
        (.flatMap hConsts.offers)
  | gparams hLifetimes hTypes hConsts _ =>
      refine .append ?_ .nil
      rw [List.flatMap_append, List.flatMap_append]
      exact .append
        (.append (.flatMap hLifetimes.offers)
          (.flatMap hTypes.offers))
        (.flatMap hConsts.offers)
  | lifetimeParam hName hBounds =>
      exact .cons hName.offers (.map hBounds.offers)
  | typeParam hName hBounds =>
      exact .cons hName.offers (.flatMap hBounds.offers)
  | constParam hName hType =>
      exact .cons hName.offers hType.offers
  | forBound hLifetimes _ hBound =>
      exact .append (.map hLifetimes.offers) hBound.offers
  | clauses hClauses _ => exact .flatMap hClauses.offers
  | lifetimeClause hName hBounds _ =>
      exact .cons hName.offers (.map hBounds.offers)
  | typeClause hType hBounds =>
      exact .cons hType.offers (.flatMap hBounds.offers)
  | forClause hLifetimes _ hClause =>
      exact .append (.map hLifetimes.offers) hClause.offers
  | assocType hName hGenerics hParams hBounds hClauses hWhere =>
      have hGiven := hGenerics.offers_generics
      have hAll := hClauses.offers_clauses
      rw [← hParams, ← hBounds] at hGiven
      rw [← hWhere] at hAll
      exact .cons hName.offers
        (.append (.append hGiven.1 hGiven.2) hAll)
  | assocConst hName hType hValue =>
      exact .cons hName.offers
        (.cons hType.offers (.toList hValue.offers))
  | param hArg hType _ => exact .cons hArg.offers hType.offers
  | params hArgs => exact .flatMap hArgs.offers
  | assocFn hName _ hAbi hGenerics hParams hArgs hItemArgs hRet
      hClauses hWhere hBody =>
      have hGiven := hGenerics.offers_generics.1
      have hGivenArgs := hArgs.offers_args
      have hAll := hClauses.offers_clauses
      rw [← hParams] at hGiven
      rw [← hItemArgs] at hGivenArgs
      rw [← hWhere] at hAll
      refine .append (.map ?_) (.cons hName.offers ?_)
      · intro abi hMember
        exact hAbi.offers abi (Option.mem_toList.mp hMember)
      · exact .append
          (.append
            (.append (.append hGiven hGivenArgs)
              (.toList hRet.offers))
            hAll)
          (.toList hBody.offers)

------------------------------------------------------------
-- Spans Of What Is Read
------------------------------------------------------------

/- A leaf has only spans of its code. -/
theorem Leaf.infix_of_holds
    {leaf : Leaf}
    {code : Code}
    {fragment : Fragment}
    (hHolds : leaf.Holds code fragment) :
    ∀ span ∈ fragment.spans, span <:+: code := by
  cases hHolds with
  | req hCode | typeBound hCode =>
      cases hCode with
      | plain _ _ =>
          exact List.forall_mem_singleton.mpr
            (List.infix_refl _)
      | relaxed _ _ =>
          exact List.forall_mem_singleton.mpr
            (List.suffix_cons _ _).isInfix
  | _ =>
      exact List.forall_mem_singleton.mpr (List.infix_refl _)

/- What derives from tokens has its spans in them. -/
theorem Production.infix_of_derives
    {production : Production}
    {tokens : List Token}
    {fragment : Fragment}
    (hDerives : production.Derives tokens fragment) :
    ∀ span ∈ fragment.spans, span <:+: tokens := by
  induction hDerives with
  | leaf _ hHolds _ =>
      intro span hSpan
      exact (Leaf.infix_of_holds hHolds span hSpan).trans
        (List.prefix_append _ _).isInfix
  | @group group pieces close fragment hStarts _ _ hForms _ ih =>
      intro span hSpan
      rcases Section.offers_of_forms hForms span hSpan with
        ⟨tag, part, hEntry, hPart⟩
      rcases List.mem_map.mp hEntry with
        ⟨piece, hPiece, hEqual⟩
      cases piece with
      | mark token other => cases hEqual
      | child opener inside other found =>
          cases hEqual
          rcases Option.isSome_iff_exists.mp
            (hStarts _ hPiece).2 with ⟨child, hChild⟩
          have hInside :=
            ih opener inside tag part child hPiece hChild span
              hPart
          have hTokens :
              opener :: inside <:+:
                pieces.flatMap Piece.tokens :=
            List.infix_of_mem_flatten
              (List.mem_map_of_mem (f := Piece.tokens) hPiece)
          exact hInside.trans
            ((List.suffix_cons opener inside).isInfix.trans
              (hTokens.trans
                (List.prefix_append _ _).isInfix))

namespace TraitDecl

/- A declaration that is read has its spans in the tokens. -/
theorem infix_of_ofTokens
    {tokens : List Token}
    {decl : TraitDecl}
    (hTokens : ofTokens tokens = .ok decl) :
    ∀ span ∈ decl.spans, span <:+: tokens := by
  rcases derivedFrom_of_ofTokens hTokens with
    ⟨opener, inside, rfl, _, hDerives⟩
  intro span hSpan
  exact (Production.infix_of_derives hDerives span hSpan).trans
    (List.suffix_cons opener inside).isInfix

/- The spans of a trait that is read from a text. -/
theorem exists_infix_of_ofText
    {file : Option String}
    {text : String}
    {decl : TraitDecl}
    (hText : ofText file text = .ok decl) :
    ∃ tokens,
      Token.ofText file text = .ok tokens ∧
        ∀ span ∈ decl.spans, span <:+: tokens := by
  unfold ofText readTokens at hText
  cases hTokens : Token.ofText file text with
  | error stray =>
      rw [hTokens] at hText
      cases hText
  | ok tokens =>
      rw [hTokens] at hText
      exact ⟨tokens, rfl, infix_of_ofTokens hText⟩

end TraitDecl

end TraitMarkup
