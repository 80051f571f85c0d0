/-
  JSON values and their text.

  Objects keep the order in which their members are listed. The
  text is plain ASCII: every other character is written as an
  escape, in two halves when it lies beyond sixteen bits.

  Key definitions include:
    * `Json`
    * `Json.quote`
    * `Json.Style`
    * `Json.write`
-/

namespace TraitMarkup

------------------------------------------------------------
-- Values
------------------------------------------------------------

/- A JSON value whose numbers are integers. -/
inductive Json where
  | null
  | bool (value : Bool)
  | int (value : Int)
  | str (text : String)
  | arr (items : List Json)
  | obj (members : List (String × Json))
deriving Repr, Inhabited

namespace Json

/- A text, or null. -/
def ofString? : Option String → Json
  | none => null
  | some text => str text

/- A number, or null. -/
def ofInt? : Option Int → Json
  | none => null
  | some value => int value

end Json

------------------------------------------------------------
-- Quoted Text
------------------------------------------------------------

namespace Json

/- One hexadecimal digit, in lower case. -/
def hexDigit
    (n : Nat) :
    Char :=
  if n < 10 then
    Char.ofNat ('0'.toNat + n)
  else
    Char.ofNat ('a'.toNat + (n - 10))

/- The lowest `width` hexadecimal digits of a number. -/
def hex
    (n : Nat) :
    Nat → List Char
  | 0 => []
  | width + 1 =>
      hex (n / 16) width ++ [hexDigit (n % 16)]

/- The escape of one unit of sixteen bits. -/
def escapeUnit
    (n : Nat) :
    List Char :=
  '\\' :: 'u' :: hex n 4

/- The units of sixteen bits that stand for a character. -/
def units
    (c : Char) :
    List Nat :=
  if c.toNat < 0x10000 then
    [c.toNat]
  else
    let n := c.toNat - 0x10000
    [0xD800 + n / 0x400, 0xDC00 + n % 0x400]

/- A character as it stands between quotes. -/
def escapeChar
    (c : Char) :
    List Char :=
  if c = '"' then ['\\', '"']
  else if c = '\\' then ['\\', '\\']
  else if c = '\n' then ['\\', 'n']
  else if c = '\r' then ['\\', 'r']
  else if c = '\t' then ['\\', 't']
  else if c = '\x08' then ['\\', 'b']
  else if c = '\x0c' then ['\\', 'f']
  else if ' ' ≤ c ∧ c ≤ '~' then [c]
  else (units c).flatMap escapeUnit

/- A text between quotes. -/
def quote
    (text : String) :
    String :=
  String.ofList
    ('"' :: (text.toList.flatMap escapeChar ++ ['"']))

end Json

------------------------------------------------------------
-- Layout Of Values
------------------------------------------------------------

namespace Json

/- How the items of a value are set apart. -/
inductive Style where
  /- Everything on one line. -/
  | compact
  /- One item a line, each level two blanks deeper. -/
  | spread
deriving DecidableEq, Repr

/- The break before an item at a given depth. -/
def lineBreak
    (depth : Nat) :
    String :=
  String.ofList ('\n' :: List.replicate (2 * depth) ' ')

/- Items between brackets, for a value at a given depth. -/
def enclose
    (style : Style)
    (depth : Nat)
    (opening closing : String)
    (items : List String) :
    String :=
  match items, style with
  | [], _ => opening ++ closing
  | _ :: _, .compact =>
      opening ++ String.intercalate ", " items ++ closing
  | _ :: _, .spread =>
      opening ++ lineBreak (depth + 1)
        ++ String.intercalate ("," ++ lineBreak (depth + 1))
          items
        ++ lineBreak depth ++ closing

mutual

/- The text of a value at a given depth. -/
def writeAt
    (style : Style)
    (depth : Nat) :
    Json → String
  | null => "null"
  | bool true => "true"
  | bool false => "false"
  | int value => toString value
  | str text => quote text
  | arr items =>
      enclose style depth "[" "]"
        (writeItems style (depth + 1) items)
  | obj members =>
      enclose style depth "\x7b" "\x7d"
        (writeMembers style (depth + 1) members)

/- The texts of the items of an array. -/
def writeItems
    (style : Style)
    (depth : Nat) :
    List Json → List String
  | [] => []
  | item :: rest =>
      writeAt style depth item :: writeItems style depth rest

/- The texts of the members of an object. -/
def writeMembers
    (style : Style)
    (depth : Nat) :
    List (String × Json) → List String
  | [] => []
  | (key, value) :: rest =>
      (quote key ++ ": " ++ writeAt style depth value) ::
        writeMembers style depth rest

end

/- The text of a value. -/
def write
    (style : Style)
    (value : Json) :
    String :=
  writeAt style 0 value

end Json

end TraitMarkup
