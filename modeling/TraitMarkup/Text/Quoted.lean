import TraitMarkup.Text.Json
import TraitMarkup.Text.Printable

/-
  Texts quoted in messages.

  A text stands between single quotes, or between double quotes
  if it holds single ones only. What cannot be shown is written
  as an escape.

  Key definitions include:
    * `Quoted.delimiter`
    * `Quoted.escapeChar`
    * `Quoted.write`
-/

namespace TraitMarkup

namespace Quoted

/- The quote to be put around a text. -/
def delimiter
    (text : List Char) :
    Char :=
  if text.contains '\'' && !text.contains '"' then
    '"'
  else
    '\''

/- The escape of a character that cannot be shown. -/
def escapeCode
    (c : Char) :
    List Char :=
  if c.toNat < 0x100 then
    '\\' :: 'x' :: Json.hex c.toNat 2
  else if c.toNat < 0x10000 then
    '\\' :: 'u' :: Json.hex c.toNat 4
  else
    '\\' :: 'U' :: Json.hex c.toNat 8

/- A character as it stands between the given quotes. -/
def escapeChar
    (quote c : Char) :
    List Char :=
  if c = quote ∨ c = '\\' then ['\\', c]
  else if c = '\n' then ['\\', 'n']
  else if c = '\r' then ['\\', 'r']
  else if c = '\t' then ['\\', 't']
  else if isPrintable c then [c]
  else escapeCode c

/- A text between quotes. -/
def write
    (text : String) :
    String :=
  let quote := delimiter text.toList
  String.ofList
    (quote :: (text.toList.flatMap (escapeChar quote)
      ++ [quote]))

end Quoted

end TraitMarkup
