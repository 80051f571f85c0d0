import TraitMarkup.Rust.Printer

/-
  Printing trees as Rust.

  A tree has no shape to keep to. Here it is printed all the
  same: a node is told by its name, a part is looked up by its
  key, and a list is gone through item by item. Each of these
  can go wrong, and the printer then says what it could not do.

  The tree of a declaration has every part in its place. So it
  is printed, and as the declaration itself.

  Key definitions include:
    * `Misprint`
    * `Tree.fetch`, `Tree.text`, `Tree.items`, `Tree.codeText`
    * `Tree.boundText`, `Tree.paramText`, `Tree.clauseText`
    * `Line.amendLast`
    * `Tree.traitLines`
    * `Tree.print`

  Main declarations:
    * `Fragment.boundText_toTree`
    * `Fragment.paramText_toTree`
    * `Fragment.clauseText_toTree`
    * `TraitDecl.print_toTree`
-/

namespace TraitMarkup

------------------------------------------------------------
-- Results
------------------------------------------------------------

section Results

variable {ε α β : Type}

/- A result is handed on. -/
theorem ok_bind
    (value : α)
    (next : α → Except ε β) :
    (Except.ok value >>= next) = next value :=
  rfl

/- A result is changed as a value is. -/
theorem map_ok
    (value : α)
    (change : α → β) :
    (change <$> (Except.ok value : Except ε α)) =
      .ok (change value) :=
  rfl

/- A value by itself is a result. -/
theorem pure_eq_ok
    (value : α) :
    (pure value : Except ε α) = .ok value :=
  rfl

/- A result has no error to change. -/
theorem mapError_ok
    {δ : Type}
    (value : α)
    (change : ε → δ) :
    (Except.ok value).mapError change = .ok value :=
  rfl

/- An error is changed as it is. -/
theorem mapError_error
    {δ : Type}
    (fault : ε)
    (change : ε → δ) :
    (Except.error fault : Except ε α).mapError change =
      .error (change fault) :=
  rfl

end Results

attribute [local simp] ok_bind map_ok pure_eq_ok

------------------------------------------------------------
-- Misprints
------------------------------------------------------------

/- Why a tree cannot be printed. -/
inductive Misprint where
  /- A node of this name has no place in this role. -/
  | unsupported (fault : Unsupported)
  /- A tree is asked for something that it does not have. -/
  | lacking (lack : Lack)
  /- There is no last line to change. -/
  | noLine
deriving DecidableEq, Repr

namespace Tree

/- The part of a tree under a key. -/
def fetch
    (tree : Tree)
    (key : String) :
    Except Misprint Tree :=
  (tree.part key).mapError .lacking

/- The text of a token. -/
def text : Tree → Except Misprint String
  | token t => .ok t.text
  | tree => .error (.lacking ⟨tree.nodeName, "text"⟩)

/- The items of a list. -/
def items : Tree → Except Misprint (List Tree)
  | list items => .ok items
  | tree => .error (.lacking ⟨tree.nodeName, "items"⟩)

/- The text of a run of tokens. -/
def codeText
    (tree : Tree) :
    Except Misprint String :=
  match tree.code? with
  | some code => .ok code.render
  | none => .error (.lacking ⟨tree.nodeName, "text"⟩)

/- The tree counts as given where a condition asks for it. -/
def holds : Tree → Bool
  | nothing => false
  | flag value => value
  | list items => !items.isEmpty
  | _ => true

/- The text of a tree, or no text for nothing. -/
def whenGiven
    (print : Tree → Except Misprint String) :
    Tree → Except Misprint String
  | nothing => .ok ""
  | tree => print tree

/- The texts of the items with a separator between them. -/
def joined
    (separator : String)
    (print : Tree → Except Misprint String)
    (tree : Tree) :
    Except Misprint String := do
  let items ← tree.items
  let texts ← items.mapM print
  return String.intercalate separator texts

/- A colon and the bounds of a list, if it has any. -/
def colonText
    (print : Tree → Except Misprint String)
    (tree : Tree) :
    Except Misprint String :=
  if tree.holds then do
    let bounds ← tree.joined " + " print
    return ": " ++ bounds
  else
    return ""

/- A part is smaller than the tree that it is found in. -/
theorem sizeOf_part_lt
    {tree found : Tree}
    {key : String}
    (hPart : tree.part key = .ok found) :
    sizeOf found < sizeOf tree := by
  cases tree with
  | node name parts =>
      have hFound : parts.lookup key = some found := by
        simp only [part] at hPart
        split at hPart
        · cases hPart
          assumption
        · cases hPart
      rcases List.lookup_eq_some_iff.mp hFound with
        ⟨earlier, later, rfl, _⟩
      have hSize :
          sizeOf (key, found) <
            sizeOf (earlier ++ (key, found) :: later) :=
        List.sizeOf_lt_of_mem (by simp)
      simp only [Prod.mk.sizeOf_spec] at hSize
      simp only [node.sizeOf_spec]
      omega
  | nothing | flag _ | token _ | list _ => cases hPart

------------------------------------------------------------
-- Bounds, Parameters And Clauses
------------------------------------------------------------

/- The lifetimes that a node binds with a `for`. -/
def binderText
    (tree : Tree) :
    Except Misprint String := do
  let lifetimes ← tree.fetch "lifetimes"
  let names ← lifetimes.joined ", " text
  return "for<" ++ names ++ "> "

/- A tree as a bound. -/
def boundText
    (tree : Tree) :
    Except Misprint String :=
  if tree.nodeName = "TraitBound" then do
    let path ← (← tree.fetch "path").codeText
    let relaxed ← tree.fetch "relaxed"
    return if relaxed.holds then "?" ++ path else path
  else if tree.nodeName = "LifetimeBound" then do
    (← tree.fetch "lifetime").text
  else if tree.nodeName = "ForBound" then do
    let binder ← tree.binderText
    match _ : tree.part "bound" with
    | .error lack => .error (.lacking lack)
    | .ok inner =>
        let bound ← inner.boundText
        return binder ++ bound
  else
    .error (.unsupported ⟨"bound", tree.nodeName⟩)
termination_by sizeOf tree
decreasing_by exact sizeOf_part_lt (by assumption)

/- A tree as a generic parameter. -/
def paramText
    (tree : Tree) :
    Except Misprint String :=
  if tree.nodeName = "LifetimeParam" then do
    let name ← (← tree.fetch "name").text
    let bounds ← (← tree.fetch "bounds").colonText text
    return name ++ bounds
  else if tree.nodeName = "TypeParam" then do
    let name ← (← tree.fetch "name").text
    let bounds ← (← tree.fetch "bounds").colonText boundText
    return name ++ bounds
  else if tree.nodeName = "ConstParam" then do
    let name ← (← tree.fetch "name").text
    let valueType ← (← tree.fetch "type").codeText
    return "const " ++ name ++ ": " ++ valueType
  else
    .error (.unsupported ⟨"generic parameter", tree.nodeName⟩)

/- A list of generic parameters in angle brackets, if any. -/
def paramsText
    (tree : Tree) :
    Except Misprint String :=
  if tree.holds then do
    let params ← tree.joined ", " paramText
    return "<" ++ params ++ ">"
  else
    return ""

/- A tree as a where clause. -/
def clauseText
    (tree : Tree) :
    Except Misprint String :=
  if tree.nodeName = "LifetimeClause" then do
    let name ← (← tree.fetch "lifetime").text
    let bounds ← (← tree.fetch "bounds").joined " + " text
    return name ++ ": " ++ bounds
  else if tree.nodeName = "TypeClause" then do
    let subject ← (← tree.fetch "type").codeText
    let bounds ← tree.fetch "bounds"
    if bounds.holds then
      let texts ← bounds.joined " + " boundText
      return subject ++ ": " ++ texts
    else
      return subject ++ ":"
  else if tree.nodeName = "ForClause" then do
    let binder ← tree.binderText
    match _ : tree.part "clause" with
    | .error lack => .error (.lacking lack)
    | .ok inner =>
        let clause ← inner.clauseText
        return binder ++ clause
  else
    .error (.unsupported ⟨"where clause", tree.nodeName⟩)
termination_by sizeOf tree
decreasing_by exact sizeOf_part_lt (by assumption)

end Tree

------------------------------------------------------------
-- Lines
------------------------------------------------------------

namespace Line

/- The lines with the text of the last one changed. -/
def amendLast
    (change : String → String)
    (lines : List Line) :
    Except Misprint (List Line) :=
  match lines.getLast? with
  | none => .error .noLine
  | some last =>
      .ok (lines.dropLast
        ++ [{ last with text := change last.text }])

/- A text that ends in `;` where it may have ended in a comma. -/
def terminated
    (text : String) :
    String :=
  if text.toList.getLast? = some ',' then
    String.ofList text.toList.dropLast ++ ";"
  else
    text ++ ";"

end Line

namespace Tree

/- The lines of a where section, if there are clauses. -/
def whereLines
    (tree : Tree) :
    Except Misprint (List Line) :=
  if tree.holds then do
    let clauses ← tree.items
    let texts ← clauses.mapM clauseText
    return ⟨0, "where"⟩ ::
      texts.map (fun text => ⟨1, text ++ ","⟩)
  else
    return []

/- An item without a body: a head and a where section. -/
def bodylessLines
    (head : String)
    (clauses : Tree) :
    Except Misprint (List Line) := do
  let lines ← clauses.whereLines
  if lines.isEmpty then
    return [⟨0, head ++ ";"⟩]
  else
    Line.amendLast Line.terminated (⟨0, head⟩ :: lines)

/- An associated type. -/
def assocTypeLines
    (tree : Tree) :
    Except Misprint (List Line) := do
  let name ← (← tree.fetch "name").text
  let params ← (← tree.fetch "params").paramsText
  let bounds ← (← tree.fetch "bounds").colonText boundText
  bodylessLines ("type " ++ name ++ params ++ bounds)
    (← tree.fetch "where")

/- An associated constant. -/
def assocConstLines
    (tree : Tree) :
    Except Misprint (List Line) := do
  let name ← (← tree.fetch "name").text
  let valueType ← (← tree.fetch "type").codeText
  let value ← (← tree.fetch "default").whenGiven fun code => do
    let text ← code.codeText
    return " = " ++ text
  return [⟨0, "const " ++ name ++ ": " ++ valueType ++ value
    ++ ";"⟩]

/- An argument and its type. -/
def fnParamText
    (tree : Tree) :
    Except Misprint String := do
  let arg ← (← tree.fetch "arg").codeText
  let argType ← (← tree.fetch "type").codeText
  return arg ++ ": " ++ argType

/- The words before `fn`. -/
def qualifiersText
    (tree : Tree) :
    Except Misprint String := do
  let mark ← tree.fetch "unsafe"
  let abi ← (← tree.fetch "abi").whenGiven fun name => do
    let text ← name.text
    return "extern " ++ text ++ " "
  return (if mark.holds then "unsafe " else "") ++ abi

/- The first line of an associated function. -/
def fnHead
    (tree : Tree) :
    Except Misprint String := do
  let qualifiers ← (← tree.fetch "qualifiers").qualifiersText
  let args ← (← tree.fetch "args").joined ", " fnParamText
  let name ← (← tree.fetch "name").text
  let params ← (← tree.fetch "params").paramsText
  let ret ← (← tree.fetch "ret").whenGiven fun code => do
    let text ← code.codeText
    return " -> " ++ text
  return qualifiers ++ "fn " ++ name ++ params
    ++ "(" ++ args ++ ")" ++ ret

/- The lines of a function with a body. -/
def bodyLines
    (head body : String)
    (clauses : List Line) :
    Except Misprint (List Line) := do
  let lines :=
    if clauses.isEmpty then
      [⟨0, head ++ " "⟩]
    else
      ⟨0, head⟩ :: clauses ++ [⟨0, ""⟩]
  if body = "" then
    Line.amendLast (· ++ "\x7b\x7d") lines
  else
    let opened ← Line.amendLast (· ++ "\x7b") lines
    return opened ++ [⟨1, body⟩, ⟨0, "\x7d"⟩]

/- An associated function. -/
def assocFnLines
    (tree : Tree) :
    Except Misprint (List Line) := do
  let head ← tree.fnHead
  let clauses ← tree.fetch "where"
  match ← tree.fetch "body" with
  | nothing => bodylessLines head clauses
  | code =>
      let lines ← clauses.whereLines
      bodyLines head (← code.codeText) lines

/- The lines of all items of a list. -/
def linesOfAll
    (print : Tree → Except Misprint (List Line))
    (tree : Tree) :
    Except Misprint (List Line) := do
  let items ← tree.items
  let lines ← items.mapM print
  return lines.flatten

------------------------------------------------------------
-- Traits
------------------------------------------------------------

/- The first line of a trait. -/
def traitHead
    (tree : Tree) :
    Except Misprint String := do
  let vis ← (← tree.fetch "vis").whenGiven fun code => do
    let text ← code.codeText
    return text ++ " "
  let mark ← tree.fetch "unsafe"
  let name ← (← tree.fetch "name").text
  let params ← (← tree.fetch "params").paramsText
  let bounds ←
    (← tree.fetch "requirements").colonText boundText
  return vis ++ (if mark.holds then "unsafe " else "")
    ++ "trait " ++ name ++ params ++ bounds

/- The items of a trait: types, then constants, then functions. -/
def traitItems
    (tree : Tree) :
    Except Misprint (List Line) := do
  let types ←
    (← tree.fetch "types").linesOfAll assocTypeLines
  let consts ←
    (← tree.fetch "consts").linesOfAll assocConstLines
  let fns ← (← tree.fetch "fns").linesOfAll assocFnLines
  return types ++ consts ++ fns

/-
  The lines of a trait. Its brace goes on the first line, or
  under the where section if there is one.
-/
def traitLines
    (tree : Tree) :
    Except Misprint (List Line) := do
  let head ← tree.traitHead
  let clauses ← tree.fetch "where"
  let lines ← clauses.whereLines
  let items ← tree.traitItems
  let brace := if items.isEmpty then "\x7b\x7d" else "\x7b"
  let opened ←
    if clauses.holds then
      pure (⟨0, head⟩ :: lines ++ [⟨0, brace⟩])
    else
      Line.amendLast (· ++ " " ++ brace) (⟨0, head⟩ :: lines)
  if items.isEmpty then
    return opened
  else
    return opened ++ items.map Line.deeper ++ [⟨0, "\x7d"⟩]

/- A tree as a trait under a layout. -/
def print
    (tree : Tree)
    (layout : Layout) :
    Except Misprint String := do
  let lines ← tree.traitLines
  return layout.render lines

end Tree

------------------------------------------------------------
-- Trees With Every Part In Its Place
------------------------------------------------------------

namespace Tree

/- A node has its first part. -/
@[simp] theorem fetch_cons
    (name key : String)
    (found : Tree)
    (more : List (String × Tree)) :
    (node name ((key, found) :: more)).fetch key =
      .ok found := by
  simp [fetch, part, mapError_ok]

/- A node has its other parts too. -/
@[simp] theorem fetch_cons_of_ne
    (name : String)
    {key other : String}
    (hKey : key ≠ other)
    (found : Tree)
    (more : List (String × Tree)) :
    (node name ((other, found) :: more)).fetch key =
      (node name more).fetch key := by
  have hBeq : (key == other) = false := by simpa using hKey
  simp [fetch, part, List.lookup_cons, hBeq]

/- A token has a text. -/
@[simp] theorem text_token
    (t : Token) :
    (token t).text = .ok t.text :=
  rfl

/- The items that are trees of values have the values' texts. -/
theorem mapM_map
    {α β : Type}
    {print : Tree → Except Misprint β}
    {toTree : α → Tree}
    {toText : α → β}
    (hPrint : ∀ item, print (toTree item) = .ok (toText item))
    (values : List α) :
    (values.map toTree).mapM print =
      .ok (values.map toText) := by
  induction values with
  | nil => rfl
  | cons value values ih =>
      rw [List.map_cons, List.mapM_cons, hPrint, ih]
      rfl

/- A list of values is joined as the values are. -/
theorem joined_ofList
    {α : Type}
    {print : Tree → Except Misprint String}
    {toTree : α → Tree}
    {toText : α → String}
    (hPrint : ∀ item, print (toTree item) = .ok (toText item))
    (separator : String)
    (values : List α) :
    (ofList toTree values).joined separator print =
      .ok (String.intercalate separator
        (values.map toText)) := by
  simp only [joined, ofList, items, ok_bind, mapM_map hPrint]
  rfl

/- Bounds stand behind a colon as they do by themselves. -/
theorem colonText_ofList
    {α : Type}
    {print : Tree → Except Misprint String}
    {toTree : α → Tree}
    {toText : α → String}
    (hPrint : ∀ item, print (toTree item) = .ok (toText item))
    (values : List α) :
    (ofList toTree values).colonText print =
      .ok (afterColon
        (fun some =>
          String.intercalate " + " (some.map toText))
        values) := by
  cases values with
  | nil => rfl
  | cons value values =>
      have hHolds :
          (ofList toTree (value :: values)).holds = true := rfl
      rw [colonText, if_pos hHolds, joined_ofList hPrint]
      rfl

/- A run of tokens is printed as code. -/
@[simp] theorem codeText_ofCode
    (code : Code) :
    (ofCode code).codeText = .ok code.render := by
  have hCode : (ofCode code).code? = some code := by
    simp only [ofCode, code?]
    induction code with
    | nil => rfl
    | cons token code ih =>
        rw [List.map_cons, List.mapM_cons, ih]
        rfl
  rw [codeText, hCode]

/- Nothing has no text. -/
@[simp] theorem whenGiven_nothing
    (print : Tree → Except Misprint String) :
    nothing.whenGiven print = .ok "" :=
  rfl

/- A token is something. -/
@[simp] theorem whenGiven_token
    (print : Tree → Except Misprint String)
    (t : Token) :
    (token t).whenGiven print = print (token t) :=
  rfl

/- Code is something, be it empty or not. -/
@[simp] theorem whenGiven_ofCode
    (print : Tree → Except Misprint String)
    (code : Code) :
    (ofCode code).whenGiven print = print (ofCode code) :=
  rfl

end Tree

/- The binder of a node with lifetimes in their place. -/
theorem Tree.binderText_node
    (name : String)
    (lifetimes : List Token)
    (more : List (String × Tree)) :
    (Tree.node name
      (("lifetimes", .ofList .token lifetimes) ::
        more)).binderText =
      .ok (forText lifetimes) := by
  have hFetch :
      (Tree.node name
        (("lifetimes", .ofList .token lifetimes) ::
          more)).fetch "lifetimes" =
        .ok (.ofList .token lifetimes) := rfl
  rw [binderText, hFetch, ok_bind, joined_ofList text_token]
  rfl

------------------------------------------------------------
-- Bounds, Parameters And Clauses Of Declarations
------------------------------------------------------------

/- A trait bound is printed. -/
theorem TraitBound.boundText_toTree
    (bound : TraitBound) :
    bound.toTree.boundText = .ok bound.toRust := by
  rw [Tree.boundText]
  cases hRelaxed : bound.relaxed <;>
    simp [toTree, Tree.nodeName, Tree.holds, toRust, hRelaxed]

/- A bound is printed. -/
theorem Bound.boundText_toTree
    (bound : Bound) :
    bound.toTree.boundText = .ok bound.toRust := by
  cases bound with
  | trait inner => exact inner.boundText_toTree
  | lifetime name =>
      rw [Tree.boundText]
      simp [toTree, Tree.nodeName, toRust]
  | forAll lifetimes inner =>
      rw [Tree.boundText]
      simp only [toTree, Tree.nodeName, String.reduceEq,
        if_false, if_true, Tree.binderText_node, ok_bind]
      split
      · rename_i hPart
        cases hPart
      · rename_i hPart
        cases hPart
        simp [inner.boundText_toTree, toRust]

/- A generic parameter is printed. -/
theorem GenericParam.paramText_toTree
    (param : GenericParam) :
    param.toTree.paramText = .ok param.toRust := by
  cases param with
  | lifetime name bounds =>
      have hBounds :
          (Tree.ofList .token bounds).colonText Tree.text =
            .ok (afterColon (joinTokens " + ") bounds) :=
        Tree.colonText_ofList Tree.text_token bounds
      simp [Tree.paramText, toTree, Tree.nodeName, hBounds,
        toRust]
  | type name bounds =>
      have hBounds :
          (Tree.ofList Bound.toTree bounds).colonText
              Tree.boundText =
            .ok (afterColon Bound.listToRust bounds) :=
        Tree.colonText_ofList Bound.boundText_toTree bounds
      simp [Tree.paramText, toTree, Tree.nodeName, hBounds,
        toRust]
  | const name valueType =>
      simp [Tree.paramText, toTree, Tree.nodeName, toRust]

/- Generic parameters are printed in their brackets. -/
@[simp] theorem GenericParam.paramsText_ofList
    (params : List GenericParam) :
    (Tree.ofList toTree params).paramsText =
      .ok (listToRust params) := by
  cases params with
  | nil => rfl
  | cons param params =>
      have hHolds :
          (Tree.ofList toTree (param :: params)).holds =
            true :=
        rfl
      rw [Tree.paramsText, if_pos hHolds,
        Tree.joined_ofList paramText_toTree]
      rfl

/- Trait bounds are printed behind a colon. -/
@[simp] theorem TraitBound.colonText_ofList
    (bounds : List TraitBound) :
    (Tree.ofList toTree bounds).colonText Tree.boundText =
      .ok (afterColon listToRust bounds) :=
  Tree.colonText_ofList boundText_toTree bounds

/- A type clause is printed. -/
theorem TypeClause.clauseText_toTree
    (clause : TypeClause) :
    clause.toTree.clauseText = .ok clause.toRust := by
  rcases clause with ⟨subject, bounds⟩
  rw [Tree.clauseText]
  have hBounds :=
    Tree.joined_ofList Bound.boundText_toTree " + " bounds
  cases bounds with
  | nil =>
      simp [toTree, Tree.nodeName, Tree.ofList, Tree.holds,
        toRust]
  | cons bound bounds =>
      have hHolds :
          (Tree.ofList Bound.toTree (bound :: bounds)).holds =
            true :=
        rfl
      simp [toTree, Tree.nodeName, hBounds, hHolds, toRust,
        Bound.listToRust]

/- A where clause is printed. -/
theorem WhereClause.clauseText_toTree
    (clause : WhereClause) :
    clause.toTree.clauseText = .ok clause.toRust := by
  cases clause with
  | lifetime name bounds =>
      have hBounds :=
        Tree.joined_ofList Tree.text_token " + " bounds
      rw [Tree.clauseText]
      simp [toTree, Tree.nodeName, hBounds, toRust, joinTokens]
  | type inner => exact inner.clauseText_toTree
  | forAll lifetimes inner =>
      rw [Tree.clauseText]
      simp only [toTree, Tree.nodeName, String.reduceEq,
        if_false, if_true, Tree.binderText_node, ok_bind]
      split
      · rename_i hPart
        cases hPart
      · rename_i hPart
        cases hPart
        simp [inner.clauseText_toTree, toRust]

------------------------------------------------------------
-- Fragments In Their Roles
------------------------------------------------------------

namespace Fragment

/- The fragment is no loose tree. -/
def isTight : Fragment → Bool
  | loose _ => false
  | _ => true

/- A fragment is a bound of its tree, or is none there either. -/
theorem boundText_toTree
    {fragment : Fragment}
    (hTight : fragment.isTight) :
    fragment.toTree.boundText =
      fragment.boundToRust.mapError .unsupported := by
  cases fragment with
  | bound inner => exact inner.boundText_toTree
  | loose tree => cases hTight
  | param inner =>
      rw [Tree.boundText]
      cases inner <;> rfl
  | clause inner =>
      rw [Tree.boundText]
      cases inner <;> rfl
  | _ =>
      rw [Tree.boundText]
      rfl

/- A fragment is a parameter by its tree, or is none. -/
theorem paramText_toTree
    {fragment : Fragment}
    (hTight : fragment.isTight) :
    fragment.toTree.paramText =
      fragment.paramToRust.mapError .unsupported := by
  cases fragment with
  | param inner => exact inner.paramText_toTree
  | loose tree => cases hTight
  | bound inner => cases inner <;> rfl
  | clause inner => cases inner <;> rfl
  | _ => rfl

/- A fragment is a where clause by its tree, or is none. -/
theorem clauseText_toTree
    {fragment : Fragment}
    (hTight : fragment.isTight) :
    fragment.toTree.clauseText =
      fragment.clauseToRust.mapError .unsupported := by
  cases fragment with
  | clause inner => exact inner.clauseText_toTree
  | loose tree => cases hTight
  | bound inner =>
      rw [Tree.clauseText]
      cases inner <;> rfl
  | param inner =>
      rw [Tree.clauseText]
      cases inner <;> rfl
  | _ =>
      rw [Tree.clauseText]
      rfl

end Fragment

------------------------------------------------------------
-- Lines Of Declarations
------------------------------------------------------------

namespace Line

/- What comes last is changed. -/
@[simp] theorem amendLast_concat
    (change : String → String)
    (front : List Line)
    (last : Line) :
    amendLast change (front ++ [last]) =
      .ok (front ++ [⟨last.depth, change last.text⟩]) := by
  simp [amendLast]

/- A comma gives way to a semicolon. -/
theorem terminated_comma
    (text : String) :
    terminated (text ++ ",") = text ++ ";" := by
  simp [terminated]

end Line

namespace WhereClause

/- All clauses but the last end in a comma. -/
theorem clauseLines_concat
    (stop : String)
    (front : List WhereClause)
    (last : WhereClause) :
    clauseLines stop (front ++ [last]) =
      front.map (fun clause => ⟨1, clause.toRust ++ ","⟩)
        ++ [⟨1, last.toRust ++ stop⟩] := by
  induction front with
  | nil => rfl
  | cons clause front ih =>
      cases front with
      | nil => rfl
      | cons second front =>
          exact congrArg (⟨1, clause.toRust ++ ","⟩ :: ·) ih

/- The clauses of a where section all end in a comma. -/
theorem clauseLines_comma
    (clauses : List WhereClause) :
    clauseLines "," clauses =
      clauses.map (fun clause => ⟨1, clause.toRust ++ ","⟩) := by
  rcases List.eq_nil_or_concat clauses with
    rfl | ⟨front, last, rfl⟩
  · rfl
  · rw [List.concat_eq_append, clauseLines_concat]
    simp

/- A where section is printed with a comma at its end. -/
@[simp] theorem whereLines_ofList
    (clauses : List WhereClause) :
    (Tree.ofList toTree clauses).whereLines =
      .ok (lines "," clauses) := by
  cases clauses with
  | nil => rfl
  | cons clause clauses =>
      have hHolds :
          (Tree.ofList toTree (clause :: clauses)).holds =
            true :=
        rfl
      rw [Tree.whereLines, if_pos hHolds]
      simp only [Tree.ofList, Tree.items, ok_bind,
        Tree.mapM_map clauseText_toTree, pure_eq_ok,
        lines, clauseLines_comma, List.map_map]
      rfl

/- An item without a body is printed. -/
@[simp] theorem bodylessLines_ofList
    (head : String)
    (clauses : List WhereClause) :
    Tree.bodylessLines head (.ofList toTree clauses) =
      .ok (TraitMarkup.bodylessLines head clauses) := by
  rw [Tree.bodylessLines, whereLines_ofList, ok_bind]
  rcases List.eq_nil_or_concat clauses with
    rfl | ⟨front, last, rfl⟩
  · rfl
  · -- The section is not empty, and its last clause comes last.
    have hLines :
        ∀ stop, lines stop (front.concat last) =
          ⟨0, "where"⟩ ::
            (front.map
                (fun clause => ⟨1, clause.toRust ++ ","⟩)
              ++ [⟨1, last.toRust ++ stop⟩]) := by
      intro stop
      rw [← clauseLines_concat, List.concat_eq_append]
      cases front <;> rfl
    have hBodyless :
        TraitMarkup.bodylessLines head (front.concat last) =
          ⟨0, head⟩ :: lines ";" (front.concat last) := by
      cases front <;> rfl
    rw [hBodyless, hLines, hLines]
    simp only [List.isEmpty_cons, Bool.false_eq_true, if_false]
    rw [← List.cons_append, ← List.cons_append,
      Line.amendLast_concat, Line.terminated_comma]
    rfl

end WhereClause

/- The lines of all items are printed. -/
theorem Tree.linesOfAll_ofList
    {α : Type}
    {print : Tree → Except Misprint (List Line)}
    {toTree : α → Tree}
    {toLines : α → List Line}
    (hPrint : ∀ item, print (toTree item) = .ok (toLines item))
    (values : List α) :
    (ofList toTree values).linesOfAll print =
      .ok (values.flatMap toLines) := by
  simp [linesOfAll, ofList, items, mapM_map hPrint,
    List.flatMap_def]

/- An associated type is printed. -/
theorem AssocType.assocTypeLines_toTree
    (item : AssocType) :
    item.toTree.assocTypeLines = .ok item.lines := by
  simp [Tree.assocTypeLines, toTree, lines, head]

/- An associated constant is printed. -/
theorem AssocConst.assocConstLines_toTree
    (item : AssocConst) :
    item.toTree.assocConstLines = .ok item.lines := by
  rcases item with ⟨name, valueType, value⟩
  cases value with
  | none =>
      simp [Tree.assocConstLines, toTree, lines, Tree.ofOption]
  | some code =>
      simp [Tree.assocConstLines, toTree, lines, Tree.ofOption,
        String.append_assoc]

/- An argument is printed. -/
theorem FnParam.fnParamText_toTree
    (param : FnParam) :
    param.toTree.fnParamText = .ok param.toRust := by
  simp [Tree.fnParamText, toTree, toRust]

/- The words before `fn` are printed. -/
@[simp] theorem Qualifiers.qualifiersText_toTree
    (qualifiers : Qualifiers) :
    qualifiers.toTree.qualifiersText =
      .ok qualifiers.toRust := by
  rcases qualifiers with ⟨isUnsafe, abi⟩
  cases abi <;> cases isUnsafe <;>
    simp [Tree.qualifiersText, toTree, toRust, Tree.ofOption,
      Tree.holds]

/- The first line of an associated function is printed. -/
theorem AssocFn.fnHead_toTree
    (item : AssocFn) :
    item.toTree.fnHead = .ok item.head := by
  have hArgs :=
    Tree.joined_ofList FnParam.fnParamText_toTree ", " item.args
  cases hRet : item.ret with
  | none =>
      simp [Tree.fnHead, toTree, head, hArgs, hRet,
        Tree.ofOption]
  | some code =>
      simp [Tree.fnHead, toTree, head, hArgs, hRet,
        Tree.ofOption, String.append_assoc]

/-
  A brace goes behind the head, or on the line that was left
  open for it under a where section.
-/
theorem Line.amendLast_opening
    (head opening : String)
    (clauses : List WhereClause) :
    amendLast (· ++ opening)
        (if (WhereClause.lines "," clauses).isEmpty then
          [⟨0, head ++ " "⟩]
        else
          ⟨0, head⟩ :: WhereClause.lines "," clauses
            ++ [⟨0, ""⟩]) =
      .ok (openingLines head opening clauses) := by
  cases clauses with
  | nil => rfl
  | cons clause clauses =>
      have hLines :
          (WhereClause.lines "," (clause :: clauses)).isEmpty =
            false :=
        rfl
      rw [hLines, if_neg Bool.false_ne_true, amendLast_concat,
        String.empty_append]
      rfl

/- A function with a body is printed. -/
theorem Tree.bodyLines_lines
    (head body : String)
    (clauses : List WhereClause) :
    bodyLines head body (WhereClause.lines "," clauses) =
      .ok (if body = "" then
          openingLines head "\x7b\x7d" clauses
        else
          openingLines head "\x7b" clauses
            ++ [⟨1, body⟩, ⟨0, "\x7d"⟩]) := by
  simp only [bodyLines, Line.amendLast_opening, ok_bind]
  split <;> rfl

/- An associated function is printed. -/
theorem AssocFn.assocFnLines_toTree
    (item : AssocFn) :
    item.toTree.assocFnLines = .ok item.lines := by
  have hWhere :
      item.toTree.fetch "where" =
        .ok (.ofList WhereClause.toTree item.clauses) := by
    simp [toTree]
  have hBody :
      item.toTree.fetch "body" =
        .ok (.ofOption .ofCode item.body) := by
    simp [toTree]
  rw [Tree.assocFnLines, fnHead_toTree, hWhere, hBody, lines]
  cases item.body with
  | none => simp [Tree.ofOption]
  | some code =>
      simp only [ok_bind, Tree.ofOption,
        WhereClause.whereLines_ofList]
      change
        ((Tree.ofCode code).codeText >>= fun body =>
          Tree.bodyLines item.head body
            (WhereClause.lines "," item.clauses)) = _
      rw [Tree.codeText_ofCode, ok_bind,
        Tree.bodyLines_lines]

------------------------------------------------------------
-- Declarations
------------------------------------------------------------

namespace TraitDecl

/- The first line of a trait is printed. -/
theorem traitHead_toTree
    (decl : TraitDecl) :
    decl.toTree.traitHead = .ok decl.header := by
  cases hVis : decl.vis <;> cases hUnsafe : decl.isUnsafe <;>
    simp [Tree.traitHead, toTree, header, hVis, hUnsafe,
      Tree.ofOption, Tree.holds]

/- The items of a trait are printed. -/
theorem traitItems_toTree
    (decl : TraitDecl) :
    decl.toTree.traitItems = .ok decl.itemLines := by
  have hTypes :=
    Tree.linesOfAll_ofList AssocType.assocTypeLines_toTree
      decl.types
  have hConsts :=
    Tree.linesOfAll_ofList AssocConst.assocConstLines_toTree
      decl.consts
  have hFns :=
    Tree.linesOfAll_ofList AssocFn.assocFnLines_toTree decl.fns
  simp [Tree.traitItems, toTree, itemLines, hTypes, hConsts,
    hFns]

/- The lines of a trait are printed. -/
theorem traitLines_toTree
    (decl : TraitDecl) :
    decl.toTree.traitLines = .ok decl.lines := by
  have hWhere :
      decl.toTree.fetch "where" =
        .ok (.ofList WhereClause.toTree decl.clauses) := by
    simp [toTree]
  rw [Tree.traitLines, traitHead_toTree, hWhere,
    traitItems_toTree, lines]
  simp only [ok_bind, WhereClause.whereLines_ofList]
  cases decl.clauses with
  | nil => cases decl.itemLines <;> rfl
  | cons clause clauses => cases decl.itemLines <;> rfl

/- The tree of a declaration is printed as the declaration. -/
theorem print_toTree
    (decl : TraitDecl)
    (layout : Layout) :
    decl.toTree.print layout = .ok (decl.render layout) := by
  rw [Tree.print, traitLines_toTree]
  rfl

end TraitDecl

end TraitMarkup
