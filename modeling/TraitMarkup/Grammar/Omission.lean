import TraitMarkup.Grammar.Draft

/-
  What a section may not be closed without.

  A part counts as given when its field has a value, whatever
  that value is.

  Key definitions include:
    * `Section.missing`
    * `Section.subject`
    * `Section.omissionText`
-/

namespace TraitMarkup

namespace Section

------------------------------------------------------------
-- Missing Parts
------------------------------------------------------------

/- The tags to ask for, unless a part is given. -/
def askFor
    (tags : List Tag)
    (given : Bool) :
    List Tag :=
  if given then [] else tags

/- The tags that a section misses. -/
def missing
    (group : Section)
    (draft : Draft) :
    List Tag :=
  let has := fun field => (draft.value? group field).isSome
  let any := fun field => !(draft.values group field).isEmpty
  match group with
  | trait | assocType | assocFn | lifetimeParam | typeParam =>
      askFor [.name] (has .name)
  | bounds | params => []
  | gparams =>
      askFor [.lifetime, .type, .const]
        (any .lifetimes || any .types || any .consts)
  | constParam | assocConst =>
      askFor [.name] (has .name) ++ askFor [.type] (has .type)
  | forBound =>
      askFor [.lifetime] (any .lifetimes)
        ++ askFor [.typeBound] (has .bound)
  | clauses =>
      askFor [.lifetimeClause, .typeClause, .forClause]
        (any .clauseList)
  | lifetimeClause =>
      if has .lifetime then
        askFor [.lifetimeBound] (any .bounds)
      else
        [.lifetime]
  | typeClause => askFor [.type] (has .type)
  | forClause =>
      askFor [.lifetime] (any .lifetimes)
        ++ askFor [.typeClause] (has .clause)
  | param =>
      askFor [.name] (has .arg) ++ askFor [.type] (has .type)

------------------------------------------------------------
-- Wording
------------------------------------------------------------

/- The field by which an incomplete section is called. -/
def subjectField? : Section → Option Field
  | constParam => some .name
  | lifetimeClause => some .lifetime
  | _ => none

/-
  The token by which an incomplete section is called. Only a
  token has a text to be called by.
-/
def subject
    (group : Section)
    (draft : Draft) :
    Except Lack (Option Token) :=
  match group.subjectField?.bind (draft.value? group) with
  | none => .ok none
  | some (.token token) => .ok (some token)
  | some fragment => .error ⟨fragment.nodeName, "text"⟩

/- The tags of a list, as a message shows them. -/
def showTags
    (tags : List Tag) :
    String :=
  String.intercalate ", "
    (tags.map (fun tag => "`<" ++ tag.text ++ ">`"))

/- How a message says that a section misses something. -/
def omissionText
    (group : Section)
    (missing : List Tag)
    (subject : Option Token) :
    String :=
  let shown := (subject.map Token.text).getD ""
  match group, missing with
  | gparams, _ => "no generic parameters provided"
  | lifetimeParam, _ => "missing lifetime name"
  | typeParam, _ => "no name given"
  | constParam, [.name] => "missing name"
  | constParam, [.type] =>
      "missing type. provided name: `" ++ shown ++ "`"
  | constParam, _ => "missing name and type"
  | forBound, [.lifetime] => "no lifetimes provided"
  | forBound, [.typeBound] => "no bound provided"
  | forBound, _ => "no lifetimes or bound provided"
  | clauses, _ => "no clauses provided"
  | lifetimeClause, [.lifetimeBound] =>
      "no bound provided for lifetime `" ++ shown ++ "`"
  | lifetimeClause, _ => "no lifetime provided"
  | typeClause, _ => "no type provided"
  | forClause, [.lifetime] => "no lifetimes provided"
  | forClause, [.typeClause] => "no bound provided"
  | forClause, _ => "no lifetimes or bound provided"
  | assocType, _ => "missing name"
  | assocConst, _ =>
      "missing one or more fields: " ++ showTags missing
  | param, [.name] => "no argument given"
  | param, [.type] => "no type given"
  | param, _ => "no parameter argument or type given"
  | _, _ => "no name provided"

end Section

end TraitMarkup
