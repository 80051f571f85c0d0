import TraitMarkup.Decl.Fragment
import TraitMarkup.Rust.Layout

/-
  Declarations as Rust.

  Every part of a declaration that fits on a line has a text.
  Items and whole traits are lists of lines. A where section
  puts each clause on a line of its own and moves the opening
  brace to the next line.

  Key definitions include:
    * `Bound.toRust`, `GenericParam.toRust`
    * `WhereClause.toRust`
    * `AssocType.lines`, `AssocConst.lines`, `AssocFn.lines`
    * `TraitDecl.header`
    * `TraitDecl.lines`
    * `TraitDecl.render`
    * `Fragment.boundToRust` and its like
-/

namespace TraitMarkup

------------------------------------------------------------
-- Bounds And Parameters
------------------------------------------------------------

/- The texts of tokens with a separator between them. -/
def joinTokens
    (separator : String)
    (tokens : List Token) :
    String :=
  String.intercalate separator (tokens.map Token.text)

/- The lifetimes that a `for` binds. -/
def forText
    (lifetimes : List Token) :
    String :=
  "for<" ++ joinTokens ", " lifetimes ++ "> "

/- A path, with `?` in front if it is relaxed. -/
def TraitBound.toRust
    (bound : TraitBound) :
    String :=
  if bound.relaxed then
    "?" ++ bound.path.render
  else
    bound.path.render

/- A bound. -/
def Bound.toRust : Bound → String
  | trait bound => bound.toRust
  | lifetime name => name.text
  | forAll lifetimes bound => forText lifetimes ++ bound.toRust

/- Bounds with a plus between them. -/
def Bound.listToRust
    (bounds : List Bound) :
    String :=
  String.intercalate " + " (bounds.map Bound.toRust)

/- Trait bounds with a plus between them. -/
def TraitBound.listToRust
    (bounds : List TraitBound) :
    String :=
  String.intercalate " + " (bounds.map TraitBound.toRust)

/- A colon and bounds, or nothing if there are no bounds. -/
def afterColon
    {α : Type}
    (toRust : List α → String) :
    List α → String
  | [] => ""
  | bounds@(_ :: _) => ": " ++ toRust bounds

/- A generic parameter. -/
def GenericParam.toRust : GenericParam → String
  | lifetime name bounds =>
      name.text ++ afterColon (joinTokens " + ") bounds
  | type name bounds =>
      name.text ++ afterColon Bound.listToRust bounds
  | const name valueType =>
      "const " ++ name.text ++ ": " ++ valueType.render

/- Parameters in angle brackets, or nothing. -/
def GenericParam.listToRust : List GenericParam → String
  | [] => ""
  | params@(_ :: _) =>
      "<" ++ String.intercalate ", "
        (params.map GenericParam.toRust) ++ ">"

------------------------------------------------------------
-- Where Sections
------------------------------------------------------------

/- A type, a colon and its bounds. -/
def TypeClause.toRust
    (clause : TypeClause) :
    String :=
  match clause.bounds with
  | [] => clause.type.render ++ ":"
  | bounds@(_ :: _) =>
      clause.type.render ++ ": " ++ Bound.listToRust bounds

/- A where clause. -/
def WhereClause.toRust : WhereClause → String
  | lifetime name bounds =>
      name.text ++ ": " ++ joinTokens " + " bounds
  | type clause => clause.toRust
  | forAll lifetimes clause =>
      forText lifetimes ++ clause.toRust

/-
  The lines of clauses. Each ends in a comma, but for the last,
  which ends in `stop`.
-/
def WhereClause.clauseLines
    (stop : String) :
    List WhereClause → List Line
  | [] => []
  | [clause] => [⟨1, clause.toRust ++ stop⟩]
  | clause :: rest =>
      ⟨1, clause.toRust ++ ","⟩ :: clauseLines stop rest

/- A where section that ends in `stop`, if there are clauses. -/
def WhereClause.lines
    (stop : String) :
    List WhereClause → List Line
  | [] => []
  | clauses@(_ :: _) =>
      ⟨0, "where"⟩ :: clauseLines stop clauses

------------------------------------------------------------
-- Associated Items
------------------------------------------------------------

/- An item without a body: its head, or its clauses, end in `;`. -/
def bodylessLines
    (head : String) :
    List WhereClause → List Line
  | [] => [⟨0, head ++ ";"⟩]
  | clauses@(_ :: _) =>
      ⟨0, head⟩ :: WhereClause.lines ";" clauses

/-
  A head that is followed by an opening text: on the same line,
  or on a line of its own after a where section.
-/
def openingLines
    (head opening : String) :
    List WhereClause → List Line
  | [] => [⟨0, head ++ " " ++ opening⟩]
  | clauses@(_ :: _) =>
      ⟨0, head⟩ :: WhereClause.lines "," clauses
        ++ [⟨0, opening⟩]

/- The first line of an associated type. -/
def AssocType.head
    (item : AssocType) :
    String :=
  "type " ++ item.name.text
    ++ GenericParam.listToRust item.params
    ++ afterColon TraitBound.listToRust item.bounds

/- An associated type. -/
def AssocType.lines
    (item : AssocType) :
    List Line :=
  bodylessLines item.head item.clauses

/- An associated constant. -/
def AssocConst.lines
    (item : AssocConst) :
    List Line :=
  let head :=
    "const " ++ item.name.text ++ ": " ++ item.type.render
  match item.value with
  | none => [⟨0, head ++ ";"⟩]
  | some value => [⟨0, head ++ " = " ++ value.render ++ ";"⟩]

/- An argument and its type. -/
def FnParam.toRust
    (param : FnParam) :
    String :=
  param.arg.render ++ ": " ++ param.type.render

/- The words before `fn`, each with a blank after it. -/
def Qualifiers.toRust
    (qualifiers : Qualifiers) :
    String :=
  (if qualifiers.isUnsafe then "unsafe " else "")
    ++ match qualifiers.abi with
      | none => ""
      | some abi => "extern " ++ abi.text ++ " "

/- The first line of an associated function. -/
def AssocFn.head
    (item : AssocFn) :
    String :=
  item.qualifiers.toRust ++ "fn " ++ item.name.text
    ++ GenericParam.listToRust item.params
    ++ "(" ++ String.intercalate ", "
      (item.args.map FnParam.toRust) ++ ")"
    ++ match item.ret with
      | none => ""
      | some ret => " -> " ++ ret.render

/- An associated function. -/
def AssocFn.lines
    (item : AssocFn) :
    List Line :=
  match item.body with
  | none => bodylessLines item.head item.clauses
  | some body =>
      if body.render = "" then
        openingLines item.head "\x7b\x7d" item.clauses
      else
        openingLines item.head "\x7b" item.clauses
          ++ [⟨1, body.render⟩, ⟨0, "\x7d"⟩]

------------------------------------------------------------
-- Traits
------------------------------------------------------------

namespace TraitDecl

/- The first line of a trait, up to its body. -/
def header
    (decl : TraitDecl) :
    String :=
  (match decl.vis with
    | none => ""
    | some vis => vis.render ++ " ")
    ++ (if decl.isUnsafe then "unsafe " else "")
    ++ "trait " ++ decl.name.text
    ++ GenericParam.listToRust decl.params
    ++ afterColon TraitBound.listToRust decl.requirements

/- The items of a trait: types, then constants, then functions. -/
def itemLines
    (decl : TraitDecl) :
    List Line :=
  decl.types.flatMap AssocType.lines
    ++ decl.consts.flatMap AssocConst.lines
    ++ decl.fns.flatMap AssocFn.lines

/- The lines of a trait. -/
def lines
    (decl : TraitDecl) :
    List Line :=
  match decl.itemLines with
  | [] => openingLines decl.header "\x7b\x7d" decl.clauses
  | items@(_ :: _) =>
      openingLines decl.header "\x7b" decl.clauses
        ++ items.map Line.deeper ++ [⟨0, "\x7d"⟩]

/- The text of a trait under a layout. -/
def render
    (decl : TraitDecl)
    (layout : Layout) :
    String :=
  layout.render decl.lines

end TraitDecl

------------------------------------------------------------
-- Fragments
------------------------------------------------------------

/- A fragment that is asked for in a role it does not have. -/
structure Unsupported where
  role : String
  node : String
deriving DecidableEq, Repr

namespace Unsupported

/- The wording of the complaint. -/
def message
    (fault : Unsupported) :
    String :=
  "unsupported " ++ fault.role ++ " node " ++ fault.node

end Unsupported

namespace Fragment

/- The fragment as a bound. -/
def boundToRust
    (fragment : Fragment) :
    Except Unsupported String :=
  match fragment.bound? with
  | none => .error ⟨"bound", fragment.nodeName⟩
  | some inner => .ok inner.toRust

/- The fragment as a generic parameter. -/
def paramToRust
    (fragment : Fragment) :
    Except Unsupported String :=
  match fragment.param? with
  | none => .error ⟨"generic parameter", fragment.nodeName⟩
  | some inner => .ok inner.toRust

/- The fragment as a where clause. -/
def clauseToRust
    (fragment : Fragment) :
    Except Unsupported String :=
  match fragment.clause? with
  | none => .error ⟨"where clause", fragment.nodeName⟩
  | some inner => .ok inner.toRust

end Fragment

end TraitMarkup
