import TraitMarkup.Grammar.Build
import TraitMarkup.Grammar.Leaf
import TraitMarkup.Grammar.Omission

/-
  The grammar of the markup as a relation.

  A leaf is code without closing and empty tags, in the shape
  that the leaf asks for. A section is a sequence of complete
  children and marks from its own table, in any order. Both end
  at their closing tag.

  What a section stands for is said field by field: which
  fields are given once, which at most once, and which list
  their children in source order.

  Key definitions include:
    * `Code.IsContent`
    * `Leaf.Holds`
    * `Draft.HasOne`, `Draft.HasAtMostOne`, `Draft.HasAll`
    * `Section.Forms`
    * `Section.SetsOnce`
    * `Piece`
    * `Production.Derives`
    * `TraitDecl.DerivedFrom`
-/

namespace TraitMarkup

------------------------------------------------------------
-- Shapes Of Code
------------------------------------------------------------

namespace Code

/- No token of the code closes a section or is an empty tag. -/
def IsContent
    (code : Code) : Prop :=
  ∀ token ∈ code,
    token.kind ≠ .closeTag ∧ token.kind ≠ .emptyTag

/- The forms of a visibility. -/
inductive IsVisibility : Code → Prop
  /- `pub` -/
  | plain
      {word : Token}
      (hWord : word.kind = .ident ∧ word.text = "pub") :
      IsVisibility [word]
  /- `pub(crate)`, `pub(self)` or `pub(super)` -/
  | restricted
      {word opening scope closing : Token}
      (hWord : word.kind = .ident ∧ word.text = "pub")
      (hOpening : opening.text = "(")
      (hScope :
        scope.text = "crate" ∨ scope.text = "self" ∨
          scope.text = "super")
      (hClosing : closing.text = ")") :
      IsVisibility [word, opening, scope, closing]
  /- `pub(in path)` -/
  | within
      {word opening keyword closing : Token}
      {path : Code}
      (hWord : word.kind = .ident ∧ word.text = "pub")
      (hOpening : opening.text = "(")
      (hKeyword : keyword.text = "in")
      (hPath : path ≠ [])
      (hClosing : closing.text = ")") :
      IsVisibility
        (word :: opening :: keyword :: (path ++ [closing]))

/- The code starts with a question mark. -/
def StartsRelaxed
    (code : Code) : Prop :=
  ∃ mark rest,
    code = mark :: rest ∧
      mark.kind = .punct ∧ mark.text = "?"

/- The code spells a path, relaxed by a leading `?` or not. -/
inductive SpellsBound : Code → TraitBound → Prop
  | plain
      {path : Code}
      (hPath : path ≠ [])
      (hPlain : ¬ path.StartsRelaxed) :
      SpellsBound path { path := path, relaxed := false }
  | relaxed
      {mark : Token}
      {path : Code}
      (hMark : mark.kind = .punct ∧ mark.text = "?")
      (hPath : path ≠ []) :
      SpellsBound (mark :: path)
        { path := path, relaxed := true }

end Code

namespace Leaf

/- The code has the shape of the leaf, and what it means. -/
inductive Holds : Leaf → Code → Fragment → Prop
  | name
      {token : Token}
      (hKind : token.kind = .ident) :
      Holds .name [token] (.token token)
  | lifetime
      {token : Token}
      (hKind : token.kind = .lifetime) :
      Holds .lifetime [token] (.token token)
  | lifetimeName
      {token : Token}
      (hKind : token.kind = .lifetime) :
      Holds .lifetimeName [token] (.token token)
  | lifetimeBound
      {token : Token}
      (hKind : token.kind = .lifetime) :
      Holds .lifetimeBound [token] (.token token)
  | abi
      {token : Token}
      (hKind : token.kind = .string) :
      Holds .abi [token] (.token token)
  | vis
      {code : Code}
      (hCode : code.IsVisibility) :
      Holds .vis code (.code code)
  | type
      {code : Code}
      (hCode : code ≠ []) :
      Holds .type code (.code code)
  | ret
      {code : Code}
      (hCode : code ≠ []) :
      Holds .ret code (.code code)
  | defaultValue
      {code : Code}
      (hCode : code ≠ []) :
      Holds .defaultValue code (.code code)
  | pat
      {code : Code}
      (hCode : code ≠ []) :
      Holds .pat code (.code code)
  | rust
      {code : Code} :
      Holds .rust code (.code code)
  | req
      {code : Code}
      {bound : TraitBound}
      (hCode : code.SpellsBound bound) :
      Holds .req code (.bound (.trait bound))
  | typeBound
      {code : Code}
      {bound : TraitBound}
      (hCode : code.SpellsBound bound) :
      Holds .typeBound code (.bound (.trait bound))

end Leaf

------------------------------------------------------------
-- Fields Of A Section
------------------------------------------------------------

namespace Draft

variable {α : Type}

/- The field is given once, with a value of some form. -/
def HasOne
    (draft : Draft)
    (group : Section)
    (field : Field)
    (form : α → Fragment)
    (value : α) : Prop :=
  draft.values group field = [form value]

/- The field is given once or not at all. -/
def HasAtMostOne
    (draft : Draft)
    (group : Section)
    (field : Field)
    (form : α → Fragment)
    (value : Option α) : Prop :=
  draft.values group field = (value.map form).toList

/- The field lists values of some form, in source order. -/
def HasAll
    (draft : Draft)
    (group : Section)
    (field : Field)
    (form : α → Fragment)
    (values : List α) : Prop :=
  draft.values group field = values.map form

end Draft

namespace Section

/-
  A field for a single child is given at most once, and so is
  every mark.
-/
def SetsOnce
    (group : Section)
    (draft : Draft) : Prop :=
  (∀ tag child,
    group.child? tag = some child → child.repeated = false →
      (draft.values group child.field).length ≤ 1) ∧
  (∀ tag, draft.entries.count (.mark tag) ≤ 1)

/- What a section stands for, said field by field. -/
inductive Forms : Section → Draft → Fragment → Prop
  | trait
      {draft : Draft}
      {decl : TraitDecl}
      {generics : Option Generics}
      {clauses : Option (List WhereClause)}
      (hName : draft.HasOne .trait .name .token decl.name)
      (hVis : draft.HasAtMostOne .trait .vis .code decl.vis)
      (hUnsafe :
        decl.isUnsafe = true ↔
          Entry.mark .unsafety ∈ draft.entries)
      (hGenerics :
        draft.HasAtMostOne .trait .bounds .generics generics)
      (hParams : decl.params = (generics.getD {}).params)
      (hRequirements :
        decl.requirements = (generics.getD {}).requirements)
      (hClauses :
        draft.HasAtMostOne .trait .clauses .clauses clauses)
      (hWhere : decl.clauses = clauses.getD [])
      (hTypes :
        draft.HasAll .trait .types .assocType decl.types)
      (hConsts :
        draft.HasAll .trait .consts .assocConst decl.consts)
      (hFns : draft.HasAll .trait .fns .assocFn decl.fns) :
      Forms .trait draft (.trait decl)
  | bounds
      {draft : Draft}
      {lifetimes types consts : List GenericParam}
      {requirements : List TraitBound}
      (hLifetimes :
        draft.HasAll .bounds .lifetimes .param lifetimes)
      (hTypes : draft.HasAll .bounds .types .param types)
      (hConsts : draft.HasAll .bounds .consts .param consts)
      (hRequirements :
        draft.HasAll .bounds .reqs (.bound ∘ .trait)
          requirements) :
      Forms .bounds draft
        (.generics
          { params := lifetimes ++ types ++ consts
            requirements := requirements })
  | gparams
      {draft : Draft}
      {lifetimes types consts : List GenericParam}
      (hLifetimes :
        draft.HasAll .gparams .lifetimes .param lifetimes)
      (hTypes : draft.HasAll .gparams .types .param types)
      (hConsts : draft.HasAll .gparams .consts .param consts)
      (hSome : lifetimes ++ types ++ consts ≠ []) :
      Forms .gparams draft
        (.generics
          { params := lifetimes ++ types ++ consts
            requirements := [] })
  | lifetimeParam
      {draft : Draft}
      {name : Token}
      {bounds : List Token}
      (hName : draft.HasOne .lifetimeParam .name .token name)
      (hBounds :
        draft.HasAll .lifetimeParam .bounds .token bounds) :
      Forms .lifetimeParam draft
        (.param (.lifetime name bounds))
  | typeParam
      {draft : Draft}
      {name : Token}
      {bounds : List Bound}
      (hName : draft.HasOne .typeParam .name .token name)
      (hBounds :
        draft.HasAll .typeParam .bounds .bound bounds) :
      Forms .typeParam draft (.param (.type name bounds))
  | constParam
      {draft : Draft}
      {name : Token}
      {code : Code}
      (hName : draft.HasOne .constParam .name .token name)
      (hType : draft.HasOne .constParam .type .code code) :
      Forms .constParam draft (.param (.const name code))
  | forBound
      {draft : Draft}
      {lifetimes : List Token}
      {bound : TraitBound}
      (hLifetimes :
        draft.HasAll .forBound .lifetimes .token lifetimes)
      (hSome : lifetimes ≠ [])
      (hBound :
        draft.HasOne .forBound .bound (.bound ∘ .trait)
          bound) :
      Forms .forBound draft (.bound (.forAll lifetimes bound))
  | clauses
      {draft : Draft}
      {clauses : List WhereClause}
      (hClauses :
        draft.HasAll .clauses .clauseList .clause clauses)
      (hSome : clauses ≠ []) :
      Forms .clauses draft (.clauses clauses)
  | lifetimeClause
      {draft : Draft}
      {name : Token}
      {bounds : List Token}
      (hName :
        draft.HasOne .lifetimeClause .lifetime .token name)
      (hBounds :
        draft.HasAll .lifetimeClause .bounds .token bounds)
      (hSome : bounds ≠ []) :
      Forms .lifetimeClause draft
        (.clause (.lifetime name bounds))
  | typeClause
      {draft : Draft}
      {code : Code}
      {bounds : List Bound}
      (hType : draft.HasOne .typeClause .type .code code)
      (hBounds :
        draft.HasAll .typeClause .bounds .bound bounds) :
      Forms .typeClause draft
        (.clause (.type { type := code, bounds := bounds }))
  | forClause
      {draft : Draft}
      {lifetimes : List Token}
      {clause : TypeClause}
      (hLifetimes :
        draft.HasAll .forClause .lifetimes .token lifetimes)
      (hSome : lifetimes ≠ [])
      (hClause :
        draft.HasOne .forClause .clause (.clause ∘ .type)
          clause) :
      Forms .forClause draft
        (.clause (.forAll lifetimes clause))
  | assocType
      {draft : Draft}
      {item : AssocType}
      {generics : Option Generics}
      {clauses : Option (List WhereClause)}
      (hName : draft.HasOne .assocType .name .token item.name)
      (hGenerics :
        draft.HasAtMostOne .assocType .bounds .generics
          generics)
      (hParams : item.params = (generics.getD {}).params)
      (hBounds :
        item.bounds = (generics.getD {}).requirements)
      (hClauses :
        draft.HasAtMostOne .assocType .clauses .clauses
          clauses)
      (hWhere : item.clauses = clauses.getD []) :
      Forms .assocType draft (.assocType item)
  | assocConst
      {draft : Draft}
      {item : AssocConst}
      (hName :
        draft.HasOne .assocConst .name .token item.name)
      (hType : draft.HasOne .assocConst .type .code item.type)
      (hValue :
        draft.HasAtMostOne .assocConst .value .code
          item.value) :
      Forms .assocConst draft (.assocConst item)
  | param
      {draft : Draft}
      {item : FnParam}
      (hArg : draft.HasOne .param .arg .code item.arg)
      (hType : draft.HasOne .param .type .code item.type)
      (hPattern :
        item.isPattern = true ↔
          ∃ fragment,
            Entry.child .pat fragment ∈ draft.entries) :
      Forms .param draft (.arg item)
  | params
      {draft : Draft}
      {args : List FnParam}
      (hArgs : draft.HasAll .params .params .arg args) :
      Forms .params draft (.args args)
  | assocFn
      {draft : Draft}
      {item : AssocFn}
      {generics : Option Generics}
      {args : Option (List FnParam)}
      {clauses : Option (List WhereClause)}
      (hName : draft.HasOne .assocFn .name .token item.name)
      (hUnsafe :
        item.qualifiers.isUnsafe = true ↔
          Entry.mark .unsafety ∈ draft.entries)
      (hAbi :
        draft.HasAtMostOne .assocFn .abi .token
          item.qualifiers.abi)
      (hGenerics :
        draft.HasAtMostOne .assocFn .gparams .generics
          generics)
      (hParams : item.params = (generics.getD {}).params)
      (hArgs :
        draft.HasAtMostOne .assocFn .params .args args)
      (hItemArgs : item.args = args.getD [])
      (hRet : draft.HasAtMostOne .assocFn .ret .code item.ret)
      (hClauses :
        draft.HasAtMostOne .assocFn .clauses .clauses clauses)
      (hWhere : item.clauses = clauses.getD [])
      (hBody :
        draft.HasAtMostOne .assocFn .body .code item.body) :
      Forms .assocFn draft (.assocFn item)

end Section

------------------------------------------------------------
-- Derivations
------------------------------------------------------------

/-
  A part of the inside of a section as it is written: a child
  from its opening tag to its closing tag, or a mark.
-/
inductive Piece where
  | child
      (opener : Token)
      (inside : List Token)
      (tag : Tag)
      (fragment : Fragment)
  | mark
      (token : Token)
      (tag : Tag)

namespace Piece

/- The tokens of the piece. -/
def tokens : Piece → List Token
  | child opener inside _ _ => opener :: inside
  | mark token _ => [token]

/- What the piece adds to a draft. -/
def entry : Piece → Entry
  | child _ _ tag fragment => .child tag fragment
  | mark _ tag => .mark tag

/- The first token of the piece is known to the section. -/
def StartsIn
    (group : Section) :
    Piece → Prop
  | child opener _ tag _ =>
      opener.opens tag.text ∧ (group.child? tag).isSome
  | mark token tag =>
      token.marks tag.text ∧ group.hasMark tag

end Piece

/- The draft of a section that is made of pieces. -/
def Draft.ofPieces
    (pieces : List Piece) :
    Draft :=
  ⟨pieces.map Piece.entry⟩

/-
  The tokens, up to and with a closing tag, are a production
  that stands for the fragment.
-/
inductive Production.Derives :
    Production → List Token → Fragment → Prop
  | leaf
      {leaf : Leaf}
      {code : Code}
      {close : Token}
      {fragment : Fragment}
      (hContent : code.IsContent)
      (hHolds : leaf.Holds code fragment)
      (hClose : close.closes leaf.closeTag.text) :
      Derives (.ofLeaf leaf) (code ++ [close]) fragment
  | group
      {group : Section}
      {pieces : List Piece}
      {close : Token}
      {fragment : Fragment}
      (hStarts : ∀ piece ∈ pieces, piece.StartsIn group)
      (hInside :
        ∀ opener inside tag fragment child,
          Piece.child opener inside tag fragment ∈ pieces →
            group.child? tag = some child →
              Derives child.production inside fragment)
      (hOnce : group.SetsOnce (.ofPieces pieces))
      (hForms : group.Forms (.ofPieces pieces) fragment)
      (hClose : close.closes group.closeTag.text) :
      Derives (.ofSection group)
        (pieces.flatMap Piece.tokens ++ [close]) fragment

/-
  The tokens are one trait section, with nothing before it or
  after it, that stands for the declaration.
-/
def TraitDecl.DerivedFrom
    (decl : TraitDecl)
    (tokens : List Token) : Prop :=
  ∃ opener inside,
    tokens = opener :: inside ∧
      opener.opens "trait" ∧
      (Production.ofSection .trait).Derives inside
        (.trait decl)

end TraitMarkup
