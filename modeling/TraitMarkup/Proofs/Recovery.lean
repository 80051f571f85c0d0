import TraitMarkup.Command.Compile
import TraitMarkup.Proofs.Spacing
import TraitMarkup.Proofs.Spans
import TraitMarkup.Proofs.Writing

/-
  Declarations are recovered from their JSON.

  A token is written as its text, and code is written as one
  text, so kinds and boundaries of tokens are gone. They come
  back when the text is cut into tokens again, as long as the
  tokens stood in a text before. Everything else in the JSON
  says itself what it is.

  What comes back is the bare form of a declaration: gaps and
  places of tokens are not part of it.

  Key definitions include:
    * `Code.ofText?`
    * `Json.field?`
    * `TraitDecl.ofJson?` and its like
    * `Code.IsReadable`
    * `TraitDecl.IsRead`

  Main declarations:
    * `Tree.field?_toJson`
    * `TraitDecl.ofJson?_toJson`
    * `TraitDecl.toJson_determines`
-/

namespace TraitMarkup

------------------------------------------------------------
-- Reading JSON
------------------------------------------------------------

namespace Json

/- The text, if the value is one. -/
def text? : Json → Option String
  | str text => some text
  | _ => none

/- The flag, if the value is one. -/
def flag? : Json → Option Bool
  | bool value => some value
  | _ => none

/- The member of an object that has this key. -/
def member?
    (key : String) :
    Json → Option Json
  | obj members => members.lookup key
  | _ => none

/- What is read from the member that has this key. -/
def field?
    {α : Type}
    (key : String)
    (read : Json → Option α)
    (value : Json) :
    Option α :=
  (value.member? key).bind read

/- The name of a node. -/
def nodeName?
    (value : Json) :
    Option String :=
  value.field? "node" text?

/- What is read from the items of an array. -/
def each?
    {α : Type}
    (read : Json → Option α) :
    Json → Option (List α)
  | arr items => items.mapM read
  | _ => none

/- What is read from a value that may be null. -/
def maybe?
    {α : Type}
    (read : Json → Option α) :
    Json → Option (Option α)
  | null => some none
  | value => (read value).map some

end Json

/- The bare tokens of a text. -/
def Code.ofText?
    (text : String) :
    Option Code :=
  match Token.ofText none text with
  | .ok tokens => some (Code.bare tokens)
  | .error _ => none

/- The code that a value was written from. -/
def Code.ofJson?
    (value : Json) :
    Option Code :=
  value.text?.bind ofText?

/- The token that a value was written from. -/
def Token.ofJson?
    (value : Json) :
    Option Token :=
  match Code.ofJson? value with
  | some [token] => some token
  | _ => none

------------------------------------------------------------
-- Reading Declarations
------------------------------------------------------------

/- The trait bound that a value was written from. -/
def TraitBound.ofJson?
    (value : Json) :
    Option TraitBound := do
  let path ← value.field? "path" Code.ofJson?
  let relaxed ← value.field? "relaxed" Json.flag?
  return { path, relaxed }

/- The bound that a value was written from. -/
def Bound.ofJson?
    (value : Json) :
    Option Bound :=
  match value.nodeName? with
  | some "TraitBound" =>
      (TraitBound.ofJson? value).map trait
  | some "LifetimeBound" =>
      (value.field? "lifetime" Token.ofJson?).map lifetime
  | some "ForBound" => do
      let lifetimes ←
        value.field? "lifetimes" (Json.each? Token.ofJson?)
      let bound ← value.field? "bound" TraitBound.ofJson?
      return forAll lifetimes bound
  | _ => none

/- The parameter that a value was written from. -/
def GenericParam.ofJson?
    (value : Json) :
    Option GenericParam := do
  let name ← value.field? "name" Token.ofJson?
  match value.nodeName? with
  | some "LifetimeParam" =>
      (value.field? "bounds" (Json.each? Token.ofJson?)).map
        (lifetime name)
  | some "TypeParam" =>
      (value.field? "bounds" (Json.each? Bound.ofJson?)).map
        (type name)
  | some "ConstParam" =>
      (value.field? "type" Code.ofJson?).map (const name)
  | _ => none

/- The clause that a value was written from. -/
def TypeClause.ofJson?
    (value : Json) :
    Option TypeClause := do
  let type ← value.field? "type" Code.ofJson?
  let bounds ← value.field? "bounds" (Json.each? Bound.ofJson?)
  return { type, bounds }

/- The clause that a value was written from. -/
def WhereClause.ofJson?
    (value : Json) :
    Option WhereClause :=
  match value.nodeName? with
  | some "LifetimeClause" => do
      let name ← value.field? "lifetime" Token.ofJson?
      let bounds ←
        value.field? "bounds" (Json.each? Token.ofJson?)
      return lifetime name bounds
  | some "TypeClause" =>
      (TypeClause.ofJson? value).map type
  | some "ForClause" => do
      let lifetimes ←
        value.field? "lifetimes" (Json.each? Token.ofJson?)
      let clause ← value.field? "clause" TypeClause.ofJson?
      return forAll lifetimes clause
  | _ => none

/- The associated type that a value was written from. -/
def AssocType.ofJson?
    (value : Json) :
    Option AssocType := do
  let name ← value.field? "name" Token.ofJson?
  let params ←
    value.field? "params" (Json.each? GenericParam.ofJson?)
  let bounds ←
    value.field? "bounds" (Json.each? TraitBound.ofJson?)
  let clauses ←
    value.field? "where" (Json.each? WhereClause.ofJson?)
  return { name, params, bounds, clauses }

/- The associated constant that a value was written from. -/
def AssocConst.ofJson?
    (value : Json) :
    Option AssocConst := do
  let name ← value.field? "name" Token.ofJson?
  let type ← value.field? "type" Code.ofJson?
  let default ← value.field? "default" (Json.maybe? Code.ofJson?)
  return { name, type, value := default }

/- The argument that a value was written from. -/
def FnParam.ofJson?
    (value : Json) :
    Option FnParam := do
  let arg ← value.field? "arg" Code.ofJson?
  let type ← value.field? "type" Code.ofJson?
  let isPattern ← value.field? "is_pattern" Json.flag?
  return { arg, type, isPattern }

/- The qualifiers that a value was written from. -/
def Qualifiers.ofJson?
    (value : Json) :
    Option Qualifiers := do
  let isUnsafe ← value.field? "unsafe" Json.flag?
  let abi ← value.field? "abi" (Json.maybe? Token.ofJson?)
  return { isUnsafe, abi }

/- The associated function that a value was written from. -/
def AssocFn.ofJson?
    (value : Json) :
    Option AssocFn := do
  let name ← value.field? "name" Token.ofJson?
  let qualifiers ← value.field? "qualifiers" Qualifiers.ofJson?
  let params ←
    value.field? "params" (Json.each? GenericParam.ofJson?)
  let args ← value.field? "args" (Json.each? FnParam.ofJson?)
  let ret ← value.field? "ret" (Json.maybe? Code.ofJson?)
  let clauses ←
    value.field? "where" (Json.each? WhereClause.ofJson?)
  let body ← value.field? "body" (Json.maybe? Code.ofJson?)
  return { name, qualifiers, params, args, ret, clauses, body }

/- The declaration that a value was written from. -/
def TraitDecl.ofJson?
    (value : Json) :
    Option TraitDecl := do
  let name ← value.field? "name" Token.ofJson?
  let vis ← value.field? "vis" (Json.maybe? Code.ofJson?)
  let isUnsafe ← value.field? "unsafe" Json.flag?
  let params ←
    value.field? "params" (Json.each? GenericParam.ofJson?)
  let requirements ←
    value.field? "requirements" (Json.each? TraitBound.ofJson?)
  let clauses ←
    value.field? "where" (Json.each? WhereClause.ofJson?)
  let types ← value.field? "types" (Json.each? AssocType.ofJson?)
  let consts ←
    value.field? "consts" (Json.each? AssocConst.ofJson?)
  let fns ← value.field? "fns" (Json.each? AssocFn.ofJson?)
  return { name, vis, isUnsafe, params, requirements, clauses,
           types, consts, fns }

------------------------------------------------------------
-- Parts Of A Node
------------------------------------------------------------

namespace Tree

/- What a part is written as under a key. -/
def valueAt
    (key : String)
    (part : Tree) :
    Json :=
  match codeAt? key part with
  | some code => .str code.render
  | none => part.toJson

/- A part of a node is read from what it is written as. -/
theorem field?_toJson
    {α : Type}
    (read : Json → Option α)
    {name key : String}
    {parts : List (String × Tree)}
    {part : Tree}
    (hKey : key ≠ "node")
    (hPart : parts.lookup key = some part) :
    (node name parts).toJson.field? key read =
      read (part.valueAt key) := by
  have hMembers :
      (partsJson parts).lookup key =
        some (part.valueAt key) := by
    induction parts with
    | nil => cases hPart
    | cons entry parts ih =>
        rcases entry with ⟨other, tree⟩
        rw [List.lookup_cons] at hPart
        rw [partsJson, List.lookup_cons]
        split at hPart
        · rename_i hSame
          cases hPart
          rw [eq_of_beq hSame]
          rfl
        · exact ih hPart
  have hOther : (key == "node") = false :=
    beq_false_of_ne hKey
  rw [toJson, Json.node, Json.field?, Json.member?,
    List.lookup_cons, hOther]
  exact congrArg (Option.bind · read) hMembers

end Tree

/- The tokens come back when the text is cut again. -/
def Code.IsReadable
    (code : Code) : Prop :=
  ofText? code.render = some code.bare

namespace Tree

variable {key : String}

/- A run of tokens is seen as one. -/
theorem code?_ofCode
    (code : Code) :
    (ofCode code).code? = some code := by
  rw [ofCode, code?]
  induction code with
  | nil => rfl
  | cons token code ih =>
      rw [List.map_cons, List.mapM_cons, ih]
      rfl

/- A token is read back from its text. -/
theorem ofJson?_token
    {token : Token}
    (hToken : token.alone.IsReadable) :
    Token.ofJson? (Tree.token token).toJson =
      some token.bare := by
  unfold Code.IsReadable at hToken
  rw [Token.render_alone] at hToken
  rw [toJson, Token.ofJson?, Code.ofJson?, Json.text?,
    Option.bind_some, hToken]
  rfl

/- What is no list is written in its own way. -/
theorem valueAt_eq
    (key : String)
    {part : Tree}
    (hPart : part.code? = none) :
    part.valueAt key = part.toJson := by
  rw [valueAt, codeAt?, hPart, ite_self]

section Field

variable
  {name key : String}
  {parts : List (String × Tree)}

/- A part that is no list. -/
theorem field?_plain
    (hKey : key ≠ "node")
    {part : Tree}
    (hPart : parts.lookup key = some part)
    (hPlain : part.code? = none)
    {α : Type}
    {read : Json → Option α}
    {value : α}
    (hRead : read part.toJson = some value) :
    (node name parts).toJson.field? key read =
      some value := by
  rw [field?_toJson read hKey hPart, valueAt_eq key hPlain, hRead]

/- A part that is a flag. -/
theorem field?_flag
    (hKey : key ≠ "node")
    {value : Bool}
    (hPart : parts.lookup key = some (flag value)) :
    (node name parts).toJson.field? key Json.flag? =
      some value :=
  field?_plain hKey hPart rfl rfl

/- A part that is a token. -/
theorem field?_token
    (hKey : key ≠ "node")
    {token : Token}
    (hPart : parts.lookup key = some (Tree.token token))
    (hToken : token.alone.IsReadable) :
    (node name parts).toJson.field? key Token.ofJson? =
      some token.bare :=
  field?_plain hKey hPart rfl (ofJson?_token hToken)

/- A part that is code. -/
theorem field?_code
    (hKey : key ≠ "node")
    (hCodeKey : isCodeKey key)
    {code : Code}
    (hPart : parts.lookup key = some (ofCode code))
    (hCode : code.IsReadable) :
    (node name parts).toJson.field? key Code.ofJson? =
      some code.bare := by
  rw [field?_toJson _ hKey hPart, valueAt, codeAt?,
    if_pos hCodeKey, code?_ofCode]
  exact hCode

/- A part that is code or absent. -/
theorem field?_maybeCode
    (hKey : key ≠ "node")
    (hCodeKey : isCodeKey key)
    {code : Option Code}
    (hPart : parts.lookup key = some (ofOption ofCode code))
    (hCode : ∀ span ∈ code.toList, span.IsReadable) :
    (node name parts).toJson.field? key
        (Json.maybe? Code.ofJson?) =
      some (code.map Code.bare) := by
  rw [field?_toJson _ hKey hPart, valueAt, codeAt?,
    if_pos hCodeKey]
  cases code with
  | none => rfl
  | some code =>
      have hRead := hCode code List.mem_cons_self
      rw [ofOption, code?_ofCode]
      exact congrArg (Option.map some) hRead

/- A part that is a list of other parts. -/
theorem field?_list
    (hKey : key ≠ "node")
    (hCodeKey : isCodeKey key = false)
    {α : Type}
    {toTree : α → Tree}
    {items : List α}
    (hPart : parts.lookup key = some (ofList toTree items))
    {read : Json → Option α}
    {bare : α → α}
    (hEach :
      ∀ item ∈ items,
        read (toTree item).toJson = some (bare item)) :
    (node name parts).toJson.field? key (Json.each? read) =
      some (items.map bare) := by
  have hItems :
      (itemsJson (items.map toTree)).mapM read =
        some (items.map bare) := by
    clear hPart
    induction items with
    | nil => rfl
    | cons item items ih =>
        rw [List.forall_mem_cons] at hEach
        rw [List.map_cons, itemsJson, List.mapM_cons, hEach.1,
          ih hEach.2]
        rfl
  rw [field?_toJson _ hKey hPart, valueAt, codeAt?, hCodeKey]
  exact hItems

/- A part that is a list of tokens. -/
theorem field?_tokens
    (hKey : key ≠ "node")
    (hCodeKey : isCodeKey key = false)
    {tokens : List Token}
    (hPart : parts.lookup key = some (ofList token tokens))
    (hTokens :
      ∀ span ∈ tokens.map Token.alone, span.IsReadable) :
    (node name parts).toJson.field? key
        (Json.each? Token.ofJson?) =
      some (tokens.map Token.bare) := by
  apply field?_list hKey hCodeKey hPart
  intro token hToken
  exact ofJson?_token
    (hTokens _ (List.mem_map_of_mem hToken))

end Field

end Tree

------------------------------------------------------------
-- Bounds, Parameters And Clauses
------------------------------------------------------------

theorem TraitBound.ofJson?_toTree
    {bound : TraitBound}
    (hSpans : ∀ span ∈ bound.spans, span.IsReadable) :
    ofJson? bound.toTree.toJson = some bound.bare := by
  have hPath := hSpans bound.path List.mem_cons_self
  unfold ofJson? toTree
  rw [Tree.field?_code (by decide) rfl rfl hPath,
    Tree.field?_flag (by decide) rfl]
  rfl

theorem Bound.ofJson?_toTree
    {bound : Bound}
    (hSpans : ∀ span ∈ bound.spans, span.IsReadable) :
    ofJson? bound.toTree.toJson = some bound.bare := by
  cases bound with
  | trait inner =>
      have hInner := TraitBound.ofJson?_toTree hSpans
      exact congrArg (Option.map trait) hInner
  | lifetime name =>
      have hName := hSpans name.alone List.mem_cons_self
      change
        (Json.field? "lifetime" Token.ofJson? _).map lifetime = _
      rw [toTree, Tree.field?_token (by decide) rfl hName]
      rfl
  | forAll lifetimes inner =>
      rw [spans, List.forall_mem_append] at hSpans
      change
        (Json.field? "lifetimes" (Json.each? Token.ofJson?)
          _).bind _ = _
      rw [toTree, Tree.field?_tokens (by decide) rfl rfl hSpans.1,
        Option.bind_some,
        Tree.field?_plain (by decide) rfl rfl
          (TraitBound.ofJson?_toTree hSpans.2)]
      rfl

theorem GenericParam.ofJson?_toTree
    {param : GenericParam}
    (hSpans : ∀ span ∈ param.spans, span.IsReadable) :
    ofJson? param.toTree.toJson = some param.bare := by
  unfold ofJson?
  cases param with
  | lifetime name bounds =>
      rw [spans, List.forall_mem_cons] at hSpans
      rw [toTree, Tree.field?_token (by decide) rfl hSpans.1]
      change
        (Json.field? "bounds" (Json.each? Token.ofJson?) _).map
          _ = _
      rw [Tree.field?_tokens (by decide) rfl rfl hSpans.2]
      rfl
  | type name bounds =>
      rw [spans, List.forall_mem_cons, List.forall_mem_flatMap]
        at hSpans
      rw [toTree, Tree.field?_token (by decide) rfl hSpans.1]
      change
        (Json.field? "bounds" (Json.each? Bound.ofJson?) _).map
          _ = _
      rw [Tree.field?_list (by decide) rfl rfl
        (fun bound hBound =>
          Bound.ofJson?_toTree (hSpans.2 bound hBound))]
      rfl
  | const name valueType =>
      rw [spans, List.forall_mem_cons, List.forall_mem_singleton]
        at hSpans
      rw [toTree, Tree.field?_token (by decide) rfl hSpans.1]
      change (Json.field? "type" Code.ofJson? _).map _ = _
      rw [Tree.field?_code (by decide) rfl rfl hSpans.2]
      rfl

theorem TypeClause.ofJson?_toTree
    {clause : TypeClause}
    (hSpans : ∀ span ∈ clause.spans, span.IsReadable) :
    ofJson? clause.toTree.toJson = some clause.bare := by
  rw [spans, List.forall_mem_cons, List.forall_mem_flatMap]
    at hSpans
  unfold ofJson? toTree
  rw [Tree.field?_code (by decide) rfl rfl hSpans.1,
    Tree.field?_list (by decide) rfl rfl
      (fun bound hBound =>
        Bound.ofJson?_toTree (hSpans.2 bound hBound))]
  rfl

theorem WhereClause.ofJson?_toTree
    {clause : WhereClause}
    (hSpans : ∀ span ∈ clause.spans, span.IsReadable) :
    ofJson? clause.toTree.toJson = some clause.bare := by
  cases clause with
  | lifetime name bounds =>
      rw [spans, List.forall_mem_cons] at hSpans
      change
        (Json.field? "lifetime" Token.ofJson? _).bind _ = _
      rw [toTree, Tree.field?_token (by decide) rfl hSpans.1,
        Option.bind_some,
        Tree.field?_tokens (by decide) rfl rfl hSpans.2]
      rfl
  | type inner =>
      have hInner := TypeClause.ofJson?_toTree hSpans
      exact congrArg (Option.map type) hInner
  | forAll lifetimes inner =>
      rw [spans, List.forall_mem_append] at hSpans
      change
        (Json.field? "lifetimes" (Json.each? Token.ofJson?)
          _).bind _ = _
      rw [toTree, Tree.field?_tokens (by decide) rfl rfl hSpans.1,
        Option.bind_some,
        Tree.field?_plain (by decide) rfl rfl
          (TypeClause.ofJson?_toTree hSpans.2)]
      rfl

------------------------------------------------------------
-- Items And Declarations
------------------------------------------------------------

theorem AssocType.ofJson?_toTree
    {item : AssocType}
    (hSpans : ∀ span ∈ item.spans, span.IsReadable) :
    ofJson? item.toTree.toJson = some item.bare := by
  simp only [spans, List.forall_mem_cons,
    List.forall_mem_append, List.forall_mem_flatMap] at hSpans
  rcases hSpans with ⟨hName, ⟨hParams, hBounds⟩, hClauses⟩
  unfold ofJson? toTree
  rw [Tree.field?_token (by decide) rfl hName,
    Tree.field?_list (by decide) rfl rfl
      (fun param hParam =>
        GenericParam.ofJson?_toTree (hParams param hParam)),
    Tree.field?_list (by decide) rfl rfl
      (fun bound hBound =>
        TraitBound.ofJson?_toTree (hBounds bound hBound)),
    Tree.field?_list (by decide) rfl rfl
      (fun clause hClause =>
        WhereClause.ofJson?_toTree (hClauses clause hClause))]
  rfl

theorem AssocConst.ofJson?_toTree
    {item : AssocConst}
    (hSpans : ∀ span ∈ item.spans, span.IsReadable) :
    ofJson? item.toTree.toJson = some item.bare := by
  simp only [spans, List.forall_mem_cons] at hSpans
  rcases hSpans with ⟨hName, hType, hValue⟩
  unfold ofJson? toTree
  rw [Tree.field?_token (by decide) rfl hName,
    Tree.field?_code (by decide) rfl rfl hType,
    Tree.field?_maybeCode (by decide) rfl rfl hValue]
  rfl

theorem FnParam.ofJson?_toTree
    {param : FnParam}
    (hSpans : ∀ span ∈ param.spans, span.IsReadable) :
    ofJson? param.toTree.toJson = some param.bare := by
  rw [spans, List.forall_mem_cons, List.forall_mem_singleton]
    at hSpans
  unfold ofJson? toTree
  rw [Tree.field?_code (by decide) rfl rfl hSpans.1,
    Tree.field?_code (by decide) rfl rfl hSpans.2,
    Tree.field?_flag (by decide) rfl]
  rfl

theorem Qualifiers.ofJson?_toTree
    {qualifiers : Qualifiers}
    (hSpans : ∀ span ∈ qualifiers.spans, span.IsReadable) :
    ofJson? qualifiers.toTree.toJson =
      some qualifiers.bare := by
  rcases qualifiers with ⟨isUnsafe, abi⟩
  unfold ofJson? toTree
  rw [Tree.field?_flag (by decide) rfl]
  cases abi with
  | none => rfl
  | some abi =>
      have hAbi :=
        Tree.ofJson?_token (hSpans abi.alone List.mem_cons_self)
      have hSome :
          Json.maybe? Token.ofJson? (Tree.token abi).toJson =
            some (some abi.bare) :=
        congrArg (Option.map some) hAbi
      rw [Tree.field?_plain (by decide) rfl rfl hSome]
      rfl

theorem AssocFn.ofJson?_toTree
    {item : AssocFn}
    (hSpans : ∀ span ∈ item.spans, span.IsReadable) :
    ofJson? item.toTree.toJson = some item.bare := by
  simp only [spans, List.forall_mem_cons,
    List.forall_mem_append, List.forall_mem_flatMap] at hSpans
  rcases hSpans with
    ⟨hQualifiers, hName, ⟨⟨⟨hParams, hArgs⟩, hRet⟩, hClauses⟩,
      hBody⟩
  unfold ofJson? toTree
  rw [Tree.field?_token (by decide) rfl hName,
    Tree.field?_plain (by decide) rfl rfl
      (Qualifiers.ofJson?_toTree hQualifiers),
    Tree.field?_list (by decide) rfl rfl
      (fun param hParam =>
        GenericParam.ofJson?_toTree (hParams param hParam)),
    Tree.field?_list (by decide) rfl rfl
      (fun arg hArg =>
        FnParam.ofJson?_toTree (hArgs arg hArg)),
    Tree.field?_maybeCode (by decide) rfl rfl hRet,
    Tree.field?_list (by decide) rfl rfl
      (fun clause hClause =>
        WhereClause.ofJson?_toTree (hClauses clause hClause)),
    Tree.field?_maybeCode (by decide) rfl rfl hBody]
  rfl

/- A declaration with readable spans is read back. -/
theorem TraitDecl.ofJson?_toJson
    {decl : TraitDecl}
    (hSpans : ∀ span ∈ decl.spans, span.IsReadable) :
    ofJson? decl.toJson = some decl.bare := by
  simp only [spans, frontSpans, itemSpans, List.forall_mem_cons,
    List.forall_mem_append, List.forall_mem_flatMap] at hSpans
  rcases hSpans with
    ⟨⟨hVis, hName, ⟨hParams, hRequirements⟩, hClauses⟩,
      ⟨hTypes, hConsts⟩, hFns⟩
  unfold ofJson? toJson toTree
  rw [Tree.field?_token (by decide) rfl hName,
    Tree.field?_maybeCode (by decide) rfl rfl hVis,
    Tree.field?_flag (by decide) rfl,
    Tree.field?_list (by decide) rfl rfl
      (fun param hParam =>
        GenericParam.ofJson?_toTree (hParams param hParam)),
    Tree.field?_list (by decide) rfl rfl
      (fun bound hBound =>
        TraitBound.ofJson?_toTree (hRequirements bound hBound)),
    Tree.field?_list (by decide) rfl rfl
      (fun clause hClause =>
        WhereClause.ofJson?_toTree (hClauses clause hClause)),
    Tree.field?_list (by decide) rfl rfl
      (fun item hItem =>
        AssocType.ofJson?_toTree (hTypes item hItem)),
    Tree.field?_list (by decide) rfl rfl
      (fun item hItem =>
        AssocConst.ofJson?_toTree (hConsts item hItem)),
    Tree.field?_list (by decide) rfl rfl
      (fun item hItem =>
        AssocFn.ofJson?_toTree (hFns item hItem))]
  rfl

------------------------------------------------------------
-- Declarations That Were Read
------------------------------------------------------------

namespace TraitDecl

/- The declaration was read from a text. -/
def IsRead
    (decl : TraitDecl) : Prop :=
  ∃ file text, ofText file text = .ok decl

/- The spans of a declaration that was read are readable. -/
theorem IsRead.isReadable
    {decl : TraitDecl}
    (hRead : decl.IsRead) :
    ∀ span ∈ decl.spans, span.IsReadable := by
  rcases hRead with ⟨file, text, hText⟩
  rcases exists_infix_of_ofText hText with
    ⟨tokens, hTokens, hInfix⟩
  intro span hSpan
  have hAgain :=
    Token.ofText_render none hTokens (hInfix span hSpan)
  unfold Code.IsReadable Code.ofText?
  cases hSpelled : Token.ofText none (Code.render span) with
  | error stray =>
      rw [hSpelled] at hAgain
      cases hAgain
  | ok again =>
      rw [hSpelled] at hAgain
      exact congrArg some (Except.ok.inj hAgain)

/-
  The JSON of a declaration that was read determines it, up to
  gaps and places: there is a reader that gives the bare
  declaration back. So does the text that is written for a list
  of declarations.
-/
theorem toJson_determines :
    (∀ decl : TraitDecl,
      decl.IsRead → ofJson? decl.toJson = some decl.bare) ∧
    (∀ left right : TraitDecl,
      left.IsRead → right.IsRead →
        left.toJson = right.toJson → left.bare = right.bare) ∧
    (∀ left right : List TraitDecl,
      (∀ decl ∈ left, decl.IsRead) →
      (∀ decl ∈ right, decl.IsRead) →
        Command.irText left = Command.irText right →
          left.map bare = right.map bare) := by
  have hBack :
      ∀ decl : TraitDecl,
        decl.IsRead → ofJson? decl.toJson = some decl.bare :=
    fun decl hRead => ofJson?_toJson hRead.isReadable
  refine ⟨hBack, ?_, ?_⟩
  · intro left right hLeft hRight hJson
    have hSame := congrArg ofJson? hJson
    rw [hBack left hLeft, hBack right hRight] at hSame
    exact Option.some.inj hSame
  · intro left right hLeft hRight hText
    have hValues :
        Json.arr (left.map toJson) = .arr (right.map toJson) :=
      Json.write_injective .spread
        ((String.append_left_inj "\n").mp hText)
    have hRead :
        ∀ decls : List TraitDecl,
          (∀ decl ∈ decls, decl.IsRead) →
            (decls.map toJson).map ofJson? =
              (decls.map bare).map some := by
      intro decls hDecls
      rw [List.map_map, List.map_map]
      exact List.map_congr_left fun decl hDecl =>
        hBack decl (hDecls decl hDecl)
    have hSame :=
      congrArg (List.map ofJson?) (Json.arr.inj hValues)
    rw [hRead left hLeft, hRead right hRight] at hSame
    exact List.map_injective_iff.mpr
      (fun _ _ => Option.some.inj) hSame

/-
  Two texts that differ in a blank. The declarations differ in
  the place of the name, but what is written for them does not.
-/
theorem toJson_determines_blank :
    ∃ left right : TraitDecl,
      left.IsRead ∧ right.IsRead ∧
        left.name.span ≠ right.name.span ∧
        Command.irText [left] = Command.irText [right] ∧
        [left].map bare = [right].map bare := by
  let near := "<trait><name>T</name></trait>"
  let far := "<trait> <name>T</name></trait>"
  have hWritten :
      (ofText none near).map (Command.irText [·]) =
        (ofText none far).map (Command.irText [·]) := by
    decide +kernel
  have hPlaces :
      (ofText none near).map (·.name.span) ≠
        (ofText none far).map (·.name.span) := by
    decide +kernel
  have hNear : (ofText none near).isOk := by
    decide +kernel
  have hFar : (ofText none far).isOk := by
    decide +kernel
  cases hLeft : ofText none near with
  | error fault =>
      rw [hLeft] at hNear
      cases hNear
  | ok left =>
      cases hRight : ofText none far with
      | error fault =>
          rw [hRight] at hFar
          cases hFar
      | ok right =>
          rw [hLeft, hRight] at hWritten hPlaces
          have hReadLeft : left.IsRead := ⟨none, near, hLeft⟩
          have hReadRight : right.IsRead := ⟨none, far, hRight⟩
          have hText := Except.ok.inj hWritten
          refine ⟨left, right, hReadLeft, hReadRight, ?_, hText,
            ?_⟩
          · intro hSpan
            exact hPlaces (congrArg Except.ok hSpan)
          · exact toJson_determines.2.2 [left] [right]
              (List.forall_mem_singleton.mpr hReadLeft)
              (List.forall_mem_singleton.mpr hReadRight) hText

end TraitDecl

end TraitMarkup
