import TraitMarkup.Rust.Printer

/-
  Other gaps and other places for the same tokens.

  A relabeling keeps the kind and the text of every token. It
  is carried through all that is made of tokens: declarations,
  trees and fragments. What looks at kinds and texts alone does
  not see it, and a relabeling that keeps the gaps as well does
  not show in any text.

  Key definitions include:
    * `Relabel`
    * `Relabel.KeepsGaps`
    * `TraitDecl.relabel` and its like
    * `Tree.relabel`
    * `Fragment.relabel`

  Main declarations:
    * `Fragment.toTree_relabel`
    * `Fragment.describe?_relabel`
    * `TraitDecl.render_relabel`
-/

namespace TraitMarkup

------------------------------------------------------------
-- Relabelings
------------------------------------------------------------

/- A change of tokens that keeps their kinds and texts. -/
structure Relabel where
  apply : Token → Token
  kind_apply : ∀ token, (apply token).kind = token.kind
  text_apply : ∀ token, (apply token).text = token.text

namespace Relabel

attribute [simp] kind_apply text_apply

/- The relabeling keeps the gaps, too. -/
def KeepsGaps
    (r : Relabel) : Prop :=
  ∀ token, (r.apply token).spaced = token.spaced

end Relabel

namespace Token

variable
  (r : Relabel)
  (token : Token)

@[simp] theorem tagName?_relabel :
    (r.apply token).tagName? = token.tagName? := by
  simp [tagName?]

@[simp] theorem opens_relabel
    (name : String) :
    (r.apply token).opens name = token.opens name := by
  simp [opens]

@[simp] theorem closes_relabel
    (name : String) :
    (r.apply token).closes name = token.closes name := by
  simp [closes]

end Token

------------------------------------------------------------
-- Declarations
------------------------------------------------------------

/- The run with its tokens relabeled. -/
def Code.relabel
    (r : Relabel)
    (code : Code) :
    Code :=
  code.map r.apply

/- The bound with its tokens relabeled. -/
def TraitBound.relabel
    (r : Relabel)
    (bound : TraitBound) :
    TraitBound :=
  { bound with path := bound.path.relabel r }

/- The bound with its tokens relabeled. -/
def Bound.relabel
    (r : Relabel) :
    Bound → Bound
  | trait bound => trait (bound.relabel r)
  | lifetime name => lifetime (r.apply name)
  | forAll lifetimes bound =>
      forAll (lifetimes.map r.apply) (bound.relabel r)

/- The parameter with its tokens relabeled. -/
def GenericParam.relabel
    (r : Relabel) :
    GenericParam → GenericParam
  | lifetime name bounds =>
      lifetime (r.apply name) (bounds.map r.apply)
  | type name bounds =>
      type (r.apply name) (bounds.map (Bound.relabel r))
  | const name valueType =>
      const (r.apply name) (valueType.relabel r)

/- The section with its tokens relabeled. -/
def Generics.relabel
    (r : Relabel)
    (generics : Generics) :
    Generics where
  params := generics.params.map (GenericParam.relabel r)
  requirements :=
    generics.requirements.map (TraitBound.relabel r)

/- The clause with its tokens relabeled. -/
def TypeClause.relabel
    (r : Relabel)
    (clause : TypeClause) :
    TypeClause where
  type := clause.type.relabel r
  bounds := clause.bounds.map (Bound.relabel r)

/- The clause with its tokens relabeled. -/
def WhereClause.relabel
    (r : Relabel) :
    WhereClause → WhereClause
  | lifetime name bounds =>
      lifetime (r.apply name) (bounds.map r.apply)
  | type clause => type (clause.relabel r)
  | forAll lifetimes clause =>
      forAll (lifetimes.map r.apply) (clause.relabel r)

/- The item with its tokens relabeled. -/
def AssocType.relabel
    (r : Relabel)
    (item : AssocType) :
    AssocType where
  name := r.apply item.name
  params := item.params.map (GenericParam.relabel r)
  bounds := item.bounds.map (TraitBound.relabel r)
  clauses := item.clauses.map (WhereClause.relabel r)

/- The item with its tokens relabeled. -/
def AssocConst.relabel
    (r : Relabel)
    (item : AssocConst) :
    AssocConst where
  name := r.apply item.name
  type := item.type.relabel r
  value := item.value.map (Code.relabel r)

/- The argument with its tokens relabeled. -/
def FnParam.relabel
    (r : Relabel)
    (param : FnParam) :
    FnParam :=
  { param with
    arg := param.arg.relabel r
    type := param.type.relabel r }

/- The qualifiers with their tokens relabeled. -/
def Qualifiers.relabel
    (r : Relabel)
    (qualifiers : Qualifiers) :
    Qualifiers :=
  { qualifiers with abi := qualifiers.abi.map r.apply }

/- The item with its tokens relabeled. -/
def AssocFn.relabel
    (r : Relabel)
    (item : AssocFn) :
    AssocFn where
  name := r.apply item.name
  qualifiers := item.qualifiers.relabel r
  params := item.params.map (GenericParam.relabel r)
  args := item.args.map (FnParam.relabel r)
  ret := item.ret.map (Code.relabel r)
  clauses := item.clauses.map (WhereClause.relabel r)
  body := item.body.map (Code.relabel r)

/- The declaration with its tokens relabeled. -/
def TraitDecl.relabel
    (r : Relabel)
    (decl : TraitDecl) :
    TraitDecl :=
  { decl with
    name := r.apply decl.name
    vis := decl.vis.map (Code.relabel r)
    params := decl.params.map (GenericParam.relabel r)
    requirements :=
      decl.requirements.map (TraitBound.relabel r)
    clauses := decl.clauses.map (WhereClause.relabel r)
    types := decl.types.map (AssocType.relabel r)
    consts := decl.consts.map (AssocConst.relabel r)
    fns := decl.fns.map (AssocFn.relabel r) }

------------------------------------------------------------
-- Trees And Fragments
------------------------------------------------------------

namespace Tree

mutual

/- The tree with its tokens relabeled. -/
def relabel
    (r : Relabel) :
    Tree → Tree
  | nothing => nothing
  | flag value => flag value
  | token t => token (r.apply t)
  | list items => list (relabelItems r items)
  | node name parts => node name (relabelParts r parts)

/- The items with their tokens relabeled. -/
def relabelItems
    (r : Relabel) :
    List Tree → List Tree
  | [] => []
  | item :: rest => item.relabel r :: relabelItems r rest

/- The parts with their tokens relabeled. -/
def relabelParts
    (r : Relabel) :
    List (String × Tree) → List (String × Tree)
  | [] => []
  | (key, part) :: rest =>
      (key, part.relabel r) :: relabelParts r rest

end

attribute [simp] relabel relabelParts

end Tree

/- The fragment with its tokens relabeled. -/
def Fragment.relabel
    (r : Relabel) :
    Fragment → Fragment
  | nothing => nothing
  | token t => token (r.apply t)
  | code c => code (c.relabel r)
  | bound b => bound (b.relabel r)
  | param p => param (p.relabel r)
  | generics g => generics (g.relabel r)
  | clause c => clause (c.relabel r)
  | clauses cs => clauses (cs.map (WhereClause.relabel r))
  | arg a => arg (a.relabel r)
  | args as => args (as.map (FnParam.relabel r))
  | assocType item => assocType (item.relabel r)
  | assocConst item => assocConst (item.relabel r)
  | assocFn item => assocFn (item.relabel r)
  | trait decl => trait (decl.relabel r)
  | loose tree => loose (tree.relabel r)

------------------------------------------------------------
-- Fragments As Trees
------------------------------------------------------------

namespace Tree

variable
  (r : Relabel)

theorem relabelItems_eq
    (items : List Tree) :
    relabelItems r items = items.map (relabel r) := by
  induction items with
  | nil => rfl
  | cons item rest ih => rw [relabelItems, ih, List.map_cons]

@[simp] theorem relabel_ofCode
    (code : Code) :
    (ofCode code).relabel r = ofCode (code.relabel r) := by
  simp [ofCode, relabel, relabelItems_eq, Code.relabel]

/- A list of parts is relabeled part by part. -/
theorem relabel_ofList
    {α : Type}
    {toTree : α → Tree}
    {carry : α → α}
    (hCarry : ∀ a, toTree (carry a) = (toTree a).relabel r)
    (items : List α) :
    ofList toTree (items.map carry) =
      (ofList toTree items).relabel r := by
  simp [ofList, relabel, relabelItems_eq, hCarry]

/- A part that may be absent is relabeled if it is there. -/
theorem relabel_ofOption
    {α : Type}
    {toTree : α → Tree}
    {carry : α → α}
    (hCarry : ∀ a, toTree (carry a) = (toTree a).relabel r)
    (value : Option α) :
    ofOption toTree (value.map carry) =
      (ofOption toTree value).relabel r := by
  cases value with
  | none => rfl
  | some a => exact hCarry a

theorem relabel_token
    (t : Token) :
    token (r.apply t) = (token t).relabel r := by
  rw [relabel]

/- A list of tokens is relabeled token by token. -/
theorem relabel_ofTokens
    (tokens : List Token) :
    ofList token (tokens.map r.apply) =
      (ofList token tokens).relabel r :=
  relabel_ofList r (relabel_token r) tokens

@[simp] theorem nodeName_relabel
    (tree : Tree) :
    (tree.relabel r).nodeName = tree.nodeName := by
  cases tree <;> simp [relabel, nodeName]

end Tree

section Trees

variable
  (r : Relabel)

theorem TraitBound.toTree_relabel
    (bound : TraitBound) :
    (bound.relabel r).toTree = bound.toTree.relabel r := by
  simp [toTree, relabel]

theorem Bound.toTree_relabel
    (bound : Bound) :
    (bound.relabel r).toTree = bound.toTree.relabel r := by
  cases bound <;>
    simp [toTree, relabel, Tree.relabel_ofTokens,
      TraitBound.toTree_relabel]

theorem GenericParam.toTree_relabel
    (param : GenericParam) :
    (param.relabel r).toTree = param.toTree.relabel r := by
  cases param <;>
    simp [toTree, relabel, Tree.relabel_ofTokens,
      Tree.relabel_ofList r (Bound.toTree_relabel r)]

theorem Generics.toTree_relabel
    (generics : Generics) :
    (generics.relabel r).toTree =
      generics.toTree.relabel r := by
  simp [toTree, relabel,
    Tree.relabel_ofList r (GenericParam.toTree_relabel r),
    Tree.relabel_ofList r (TraitBound.toTree_relabel r)]

theorem TypeClause.toTree_relabel
    (clause : TypeClause) :
    (clause.relabel r).toTree = clause.toTree.relabel r := by
  simp [toTree, relabel,
    Tree.relabel_ofList r (Bound.toTree_relabel r)]

theorem WhereClause.toTree_relabel
    (clause : WhereClause) :
    (clause.relabel r).toTree = clause.toTree.relabel r := by
  cases clause <;>
    simp [toTree, relabel, Tree.relabel_ofTokens,
      TypeClause.toTree_relabel]

theorem AssocType.toTree_relabel
    (item : AssocType) :
    (item.relabel r).toTree = item.toTree.relabel r := by
  simp [toTree, relabel,
    Tree.relabel_ofList r (GenericParam.toTree_relabel r),
    Tree.relabel_ofList r (TraitBound.toTree_relabel r),
    Tree.relabel_ofList r (WhereClause.toTree_relabel r)]

/- Code that may be absent is relabeled if it is there. -/
theorem Tree.relabel_ofCode?
    (code : Option Code) :
    Tree.ofOption .ofCode (code.map (Code.relabel r)) =
      (Tree.ofOption .ofCode code).relabel r :=
  Tree.relabel_ofOption r
    (fun code => (Tree.relabel_ofCode r code).symm) code

theorem AssocConst.toTree_relabel
    (item : AssocConst) :
    (item.relabel r).toTree = item.toTree.relabel r := by
  simp [toTree, relabel, Tree.relabel_ofCode?]

theorem FnParam.toTree_relabel
    (param : FnParam) :
    (param.relabel r).toTree = param.toTree.relabel r := by
  simp [toTree, relabel]

theorem Qualifiers.toTree_relabel
    (qualifiers : Qualifiers) :
    (qualifiers.relabel r).toTree =
      qualifiers.toTree.relabel r := by
  have hAbi :=
    Tree.relabel_ofOption r (Tree.relabel_token r)
      qualifiers.abi
  simp [toTree, relabel, hAbi]

theorem AssocFn.toTree_relabel
    (item : AssocFn) :
    (item.relabel r).toTree = item.toTree.relabel r := by
  simp [toTree, relabel, Qualifiers.toTree_relabel,
    Tree.relabel_ofCode?,
    Tree.relabel_ofList r (GenericParam.toTree_relabel r),
    Tree.relabel_ofList r (FnParam.toTree_relabel r),
    Tree.relabel_ofList r (WhereClause.toTree_relabel r)]

theorem TraitDecl.toTree_relabel
    (decl : TraitDecl) :
    (decl.relabel r).toTree = decl.toTree.relabel r := by
  simp [toTree, relabel, Tree.relabel_ofCode?,
    Tree.relabel_ofList r (GenericParam.toTree_relabel r),
    Tree.relabel_ofList r (TraitBound.toTree_relabel r),
    Tree.relabel_ofList r (WhereClause.toTree_relabel r),
    Tree.relabel_ofList r (AssocType.toTree_relabel r),
    Tree.relabel_ofList r (AssocConst.toTree_relabel r),
    Tree.relabel_ofList r (AssocFn.toTree_relabel r)]

/- A fragment is relabeled before or after it is a tree. -/
theorem Fragment.toTree_relabel
    (fragment : Fragment) :
    (fragment.relabel r).toTree =
      fragment.toTree.relabel r := by
  cases fragment with
  | nothing => simp [relabel, toTree]
  | token t => simp [relabel, toTree]
  | code c => simp [relabel, toTree]
  | bound b => exact b.toTree_relabel r
  | param p => exact p.toTree_relabel r
  | generics g => exact g.toTree_relabel r
  | clause c => exact c.toTree_relabel r
  | clauses cs =>
      exact Tree.relabel_ofList r
        (WhereClause.toTree_relabel r) cs
  | arg a => exact a.toTree_relabel r
  | args as =>
      exact Tree.relabel_ofList r (FnParam.toTree_relabel r) as
  | assocType item => exact item.toTree_relabel r
  | assocConst item => exact item.toTree_relabel r
  | assocFn item => exact item.toTree_relabel r
  | trait decl => exact decl.toTree_relabel r
  | loose tree => rfl

end Trees

------------------------------------------------------------
-- Texts
------------------------------------------------------------

namespace Tree

/- A run of tokens is relabeled before or after it is seen. -/
theorem code?_relabel
    (r : Relabel)
    (tree : Tree) :
    (tree.relabel r).code? =
      tree.code?.map (Code.relabel r) := by
  cases tree with
  | list items =>
      simp only [relabel, code?, relabelItems_eq]
      induction items with
      | nil => rfl
      | cons item items ih =>
          simp only [List.map_cons, List.mapM_cons, ih]
          cases item with
          | token t =>
              cases items.mapM token? <;> rfl
          | _ => simp [relabel, token?]
  | _ => simp [relabel, code?]

end Tree

section Texts

variable
  {r : Relabel}
  (hGaps : r.KeepsGaps)

include hGaps

/- The text of a run does not show its places. -/
theorem Code.render_relabel
    (code : Code) :
    (code.relabel r).render = code.render := by
  have hSpelled :
      ∀ token, (r.apply token).spelled = token.spelled := by
    intro token
    simp [Token.spelled, hGaps token]
  cases code with
  | nil => rfl
  | cons first rest =>
      simp [relabel, render, hSpelled, Function.comp_def]

/- How a value is spelled does not show its places. -/
theorem Fragment.describe?_relabel
    (fragment : Fragment) :
    (fragment.relabel r).describe? = fragment.describe? := by
  unfold describe?
  rw [toTree_relabel]
  cases fragment.toTree with
  | token t => simp [Tree.relabel]
  | list items =>
      have hCode := Tree.code?_relabel r (.list items)
      cases items with
      | nil => simp [Tree.relabel, Tree.relabelItems]
      | cons item items =>
          simp only [Tree.relabel, Tree.relabelItems]
            at hCode ⊢
          simp [hCode, Function.comp_def,
            Code.render_relabel hGaps]
  | _ => simp [Tree.relabel, Tree.code?]

end Texts

section Printing

variable
  {r : Relabel}
  (hGaps : r.KeepsGaps)

/- The texts of tokens do not show anything else. -/
theorem joinTokens_relabel
    (separator : String)
    (tokens : List Token) :
    joinTokens separator (tokens.map r.apply) =
      joinTokens separator tokens := by
  simp [joinTokens, Function.comp_def]

theorem forText_relabel
    (lifetimes : List Token) :
    forText (lifetimes.map r.apply) = forText lifetimes := by
  simp [forText, joinTokens_relabel]

/- A list after a colon shows what its items show. -/
theorem afterColon_map
    {α : Type}
    {toRust : List α → String}
    {carry : α → α}
    (hCarry :
      ∀ items, toRust (items.map carry) = toRust items)
    (items : List α) :
    afterColon toRust (items.map carry) =
      afterColon toRust items := by
  cases items with
  | nil => rfl
  | cons first rest =>
      have hAll := hCarry (first :: rest)
      simp only [List.map_cons] at hAll ⊢
      simp only [afterColon, hAll]

include hGaps

theorem TraitBound.toRust_relabel
    (bound : TraitBound) :
    (bound.relabel r).toRust = bound.toRust := by
  simp [toRust, relabel, Code.render_relabel hGaps]

theorem TraitBound.listToRust_relabel
    (bounds : List TraitBound) :
    listToRust (bounds.map (relabel r)) =
      listToRust bounds := by
  simp [listToRust, Function.comp_def, toRust_relabel hGaps]

theorem Bound.toRust_relabel
    (bound : Bound) :
    (bound.relabel r).toRust = bound.toRust := by
  cases bound <;>
    simp [toRust, relabel, forText_relabel,
      TraitBound.toRust_relabel hGaps]

theorem Bound.listToRust_relabel
    (bounds : List Bound) :
    listToRust (bounds.map (relabel r)) =
      listToRust bounds := by
  simp [listToRust, Function.comp_def, toRust_relabel hGaps]

theorem GenericParam.toRust_relabel
    (param : GenericParam) :
    (param.relabel r).toRust = param.toRust := by
  cases param with
  | lifetime name bounds =>
      simp [toRust, relabel,
        afterColon_map (joinTokens_relabel " + ")]
  | type name bounds =>
      simp [toRust, relabel,
        afterColon_map (Bound.listToRust_relabel hGaps)]
  | const name valueType =>
      simp [toRust, relabel, Code.render_relabel hGaps]

theorem GenericParam.listToRust_relabel
    (params : List GenericParam) :
    listToRust (params.map (relabel r)) =
      listToRust params := by
  cases params with
  | nil => rfl
  | cons first rest =>
      simp [listToRust, Function.comp_def,
        toRust_relabel hGaps]

theorem TypeClause.toRust_relabel
    (clause : TypeClause) :
    (clause.relabel r).toRust = clause.toRust := by
  rcases clause with ⟨type, bounds⟩
  have hBounds := Bound.listToRust_relabel hGaps bounds
  cases bounds with
  | nil => simp [toRust, relabel, Code.render_relabel hGaps]
  | cons bound bounds =>
      simp only [List.map_cons] at hBounds
      simp [toRust, relabel, hBounds,
        Code.render_relabel hGaps]

theorem WhereClause.toRust_relabel
    (clause : WhereClause) :
    (clause.relabel r).toRust = clause.toRust := by
  cases clause <;>
    simp [toRust, relabel, forText_relabel, joinTokens_relabel,
      TypeClause.toRust_relabel hGaps]

theorem WhereClause.clauseLines_relabel
    (stop : String)
    (clauses : List WhereClause) :
    clauseLines stop (clauses.map (relabel r)) =
      clauseLines stop clauses := by
  induction clauses with
  | nil => rfl
  | cons clause rest ih =>
      cases rest with
      | nil => simp [clauseLines, toRust_relabel hGaps]
      | cons second rest =>
          simp only [List.map_cons] at ih ⊢
          simp only [clauseLines, ih, toRust_relabel hGaps]

theorem WhereClause.lines_relabel
    (stop : String)
    (clauses : List WhereClause) :
    WhereClause.lines stop (clauses.map (relabel r)) =
      WhereClause.lines stop clauses := by
  have hLines := clauseLines_relabel hGaps stop clauses
  cases clauses with
  | nil => rfl
  | cons clause rest =>
      simp only [List.map_cons] at hLines ⊢
      simp only [WhereClause.lines, hLines]

theorem bodylessLines_relabel
    (head : String)
    (clauses : List WhereClause) :
    bodylessLines head
        (clauses.map (WhereClause.relabel r)) =
      bodylessLines head clauses := by
  have hLines := WhereClause.lines_relabel hGaps ";" clauses
  cases clauses with
  | nil => rfl
  | cons clause rest =>
      simp only [List.map_cons] at hLines ⊢
      simp only [bodylessLines, hLines]

theorem openingLines_relabel
    (head opening : String)
    (clauses : List WhereClause) :
    openingLines head opening
        (clauses.map (WhereClause.relabel r)) =
      openingLines head opening clauses := by
  have hLines := WhereClause.lines_relabel hGaps "," clauses
  cases clauses with
  | nil => rfl
  | cons clause rest =>
      simp only [List.map_cons] at hLines ⊢
      simp only [openingLines, hLines]

theorem AssocType.lines_relabel
    (item : AssocType) :
    (item.relabel r).lines = item.lines := by
  simp [lines, head, relabel, bodylessLines_relabel hGaps,
    GenericParam.listToRust_relabel hGaps,
    afterColon_map (TraitBound.listToRust_relabel hGaps)]

theorem AssocConst.lines_relabel
    (item : AssocConst) :
    (item.relabel r).lines = item.lines := by
  rcases item with ⟨name, type, value⟩
  cases value <;>
    simp [lines, relabel, Code.render_relabel hGaps]

theorem FnParam.toRust_relabel
    (param : FnParam) :
    (param.relabel r).toRust = param.toRust := by
  simp [toRust, relabel, Code.render_relabel hGaps]

omit hGaps in
theorem Qualifiers.toRust_relabel
    (qualifiers : Qualifiers) :
    (qualifiers.relabel r).toRust = qualifiers.toRust := by
  rcases qualifiers with ⟨isUnsafe, abi⟩
  cases isUnsafe <;> cases abi <;> simp [toRust, relabel]

theorem AssocFn.head_relabel
    (item : AssocFn) :
    (item.relabel r).head = item.head := by
  rcases item with
    ⟨name, qualifiers, params, args, ret, clauses, body⟩
  cases ret <;>
    simp [head, relabel, Qualifiers.toRust_relabel,
      GenericParam.listToRust_relabel hGaps,
      FnParam.toRust_relabel hGaps,
      Code.render_relabel hGaps, Function.comp_def]

theorem AssocFn.lines_relabel
    (item : AssocFn) :
    (item.relabel r).lines = item.lines := by
  have hHead := head_relabel hGaps item
  rcases item with
    ⟨name, qualifiers, params, args, ret, clauses, body⟩
  cases body with
  | none =>
      simp only [lines, hHead]
      exact bodylessLines_relabel hGaps _ clauses
  | some body =>
      have hOpening :=
        fun opening head =>
          openingLines_relabel hGaps head opening clauses
      simp only [lines, hHead]
      simp only [relabel, Option.map_some,
        Code.render_relabel hGaps, hOpening]

theorem TraitDecl.header_relabel
    (decl : TraitDecl) :
    (decl.relabel r).header = decl.header := by
  rcases decl with ⟨name, vis, isUnsafe, params, requirements,
    clauses, types, consts, fns⟩
  cases isUnsafe <;> cases vis <;>
    simp [header, relabel, Code.render_relabel hGaps,
      GenericParam.listToRust_relabel hGaps,
      afterColon_map (TraitBound.listToRust_relabel hGaps)]

theorem TraitDecl.itemLines_relabel
    (decl : TraitDecl) :
    (decl.relabel r).itemLines = decl.itemLines := by
  simp [itemLines, relabel, List.flatMap_map,
    AssocType.lines_relabel hGaps,
    AssocConst.lines_relabel hGaps,
    AssocFn.lines_relabel hGaps]

/- A declaration is printed without its places. -/
theorem TraitDecl.render_relabel
    (decl : TraitDecl)
    (layout : Layout) :
    (decl.relabel r).render layout = decl.render layout := by
  have hLines : (decl.relabel r).lines = decl.lines := by
    have hOpening :=
      fun head opening =>
        openingLines_relabel hGaps head opening decl.clauses
    unfold lines
    rw [itemLines_relabel hGaps, header_relabel hGaps]
    simp only [relabel, hOpening]
  unfold render
  rw [hLines]

end Printing

end TraitMarkup
