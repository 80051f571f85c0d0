import TraitMarkup.Decl.Json

/-
  Fragments: what a section of the markup stands for once it
  is closed.

  A section that was given a part which no declaration has in
  that place still stands for something: a loose tree.

  Key definitions include:
    * `Fragment`
    * `Fragment.bare`
    * `Fragment.Same`
    * `Fragment.toTree`, `Fragment.toJson`
    * `Fragment.describe?`
    * `Fragment.nodeName`
-/

namespace TraitMarkup

------------------------------------------------------------
-- Fragments
------------------------------------------------------------

/- The result of one production. -/
inductive Fragment where
  /- What a host hands over when it has no result. -/
  | nothing
  | token (token : Token)
  | code (code : Code)
  | bound (bound : Bound)
  | param (param : GenericParam)
  | generics (generics : Generics)
  | clause (clause : WhereClause)
  | clauses (clauses : List WhereClause)
  | arg (arg : FnParam)
  | args (args : List FnParam)
  | assocType (item : AssocType)
  | assocConst (item : AssocConst)
  | assocFn (item : AssocFn)
  | trait (decl : TraitDecl)
  /- A result with a part that is foreign to it. -/
  | loose (tree : Tree)
deriving DecidableEq, Repr

namespace Fragment

/- The fragment without gaps and places. -/
def bare : Fragment → Fragment
  | nothing => nothing
  | token t => token t.bare
  | code c => code c.bare
  | bound b => bound b.bare
  | param p => param p.bare
  | generics g => generics g.bare
  | clause c => clause c.bare
  | clauses cs => clauses (cs.map WhereClause.bare)
  | arg a => arg a.bare
  | args as => args (as.map FnParam.bare)
  | assocType item => assocType item.bare
  | assocConst item => assocConst item.bare
  | assocFn item => assocFn item.bare
  | trait decl => trait decl.bare
  | loose tree => loose tree.bare

/- Two fragments agree but for gaps and places. -/
def Same
    (left right : Fragment) : Prop :=
  left.bare = right.bare

instance
    (left right : Fragment) :
    Decidable (Same left right) := by
  unfold Same
  infer_instance

end Fragment

------------------------------------------------------------
-- Views
------------------------------------------------------------

namespace Fragment

/- The token, if the fragment is one. -/
def token? : Fragment → Option Token
  | token t => some t
  | _ => none

/- The code, if the fragment is some. -/
def code? : Fragment → Option Code
  | code c => some c
  | _ => none

/- The bound, if the fragment is one. -/
def bound? : Fragment → Option Bound
  | bound b => some b
  | _ => none

/- The plain trait bound, if the fragment is one. -/
def traitBound? : Fragment → Option TraitBound
  | bound (.trait b) => some b
  | _ => none

/- The generic parameter, if the fragment is one. -/
def param? : Fragment → Option GenericParam
  | param p => some p
  | _ => none

/- The generics, if the fragment is such a section. -/
def generics? : Fragment → Option Generics
  | generics g => some g
  | _ => none

/- The where clause, if the fragment is one. -/
def clause? : Fragment → Option WhereClause
  | clause c => some c
  | _ => none

/- The type clause, if the fragment is one. -/
def typeClause? : Fragment → Option TypeClause
  | clause (.type c) => some c
  | _ => none

/- The where clauses, if the fragment is a list of them. -/
def clauses? : Fragment → Option (List WhereClause)
  | clauses cs => some cs
  | _ => none

/- The argument, if the fragment is one. -/
def arg? : Fragment → Option FnParam
  | arg a => some a
  | _ => none

/- The arguments, if the fragment is a list of them. -/
def args? : Fragment → Option (List FnParam)
  | args as => some as
  | _ => none

/- The associated type, if the fragment is one. -/
def assocType? : Fragment → Option AssocType
  | assocType item => some item
  | _ => none

/- The associated constant, if the fragment is one. -/
def assocConst? : Fragment → Option AssocConst
  | assocConst item => some item
  | _ => none

/- The associated function, if the fragment is one. -/
def assocFn? : Fragment → Option AssocFn
  | assocFn item => some item
  | _ => none

/- The declaration, if the fragment is one. -/
def trait? : Fragment → Option TraitDecl
  | trait decl => some decl
  | _ => none

/- The fragment, unless it is nothing. -/
def some? : Fragment → Option Fragment
  | nothing => none
  | fragment => some fragment

end Fragment

------------------------------------------------------------
-- Written Forms
------------------------------------------------------------

namespace Fragment

/- The fragment as a tree. -/
def toTree : Fragment → Tree
  | nothing => .nothing
  | token t => .token t
  | code c => .ofCode c
  | bound b => b.toTree
  | param p => p.toTree
  | generics g => g.toTree
  | clause c => c.toTree
  | clauses cs => .ofList WhereClause.toTree cs
  | arg a => a.toTree
  | args as => .ofList FnParam.toTree as
  | assocType item => item.toTree
  | assocConst item => item.toTree
  | assocFn item => item.toTree
  | trait decl => decl.toTree
  | loose tree => tree

/- The fragment as JSON. -/
def toJson
    (fragment : Fragment) :
    Json :=
  fragment.toTree.toJson

/- The name under which a fragment is written out. -/
def nodeName
    (fragment : Fragment) :
    String :=
  fragment.toTree.nodeName

/- How a message spells a value, if it can be spelled. -/
def describe?
    (fragment : Fragment) :
    Option String :=
  match fragment.toTree with
  | .token t => some t.text
  | .list [] => none
  | tree => tree.code?.map Code.render

end Fragment

end TraitMarkup
