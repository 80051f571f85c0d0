import TraitMarkup.Text.Quoted

/-
  The options of the command line and how it may be misused.

  Key definitions include:
    * `Command.Switch`
    * `Command.Switch.spellings`
    * `Command.Misuse`
    * `Command.Misuse.message`
-/

namespace TraitMarkup

namespace Command

------------------------------------------------------------
-- Switches
------------------------------------------------------------

/- The options that the command knows. -/
inductive Switch where
  | help
  | output
  | indent
  | tabs
  | emitIr
  | json
deriving DecidableEq, Repr

namespace Switch

/- Every option, in the order in which help lists them. -/
def all : List Switch :=
  [help, output, indent, tabs, emitIr, json]

/- The spellings of an option. -/
def spellings : Switch → List String
  | help => ["-h", "--help"]
  | output => ["-o", "--output"]
  | indent => ["--indent"]
  | tabs => ["--tabs"]
  | emitIr => ["--emit-ir"]
  | json => ["--json"]

/- How messages call an option. -/
def label
    (switch : Switch) :
    String :=
  String.intercalate "/" switch.spellings

/- The option takes a value. -/
def takesValue : Switch → Bool
  | output | indent | emitIr => true
  | help | tabs | json => false

/- Every spelling with the option it stands for. -/
def spelled : List (String × Switch) :=
  all.flatMap
    (fun switch =>
      switch.spellings.map (fun spelling => (spelling, switch)))

/- The option of a spelling. -/
def ofSpelling?
    (spelling : String) :
    Option Switch :=
  spelled.lookup spelling

end Switch

------------------------------------------------------------
-- Misuse
------------------------------------------------------------

/- Why a command line is not carried out. -/
inductive Misuse where
  /- The user asked how the command is used. -/
  | help
  /- A shortened option may be several ones. -/
  | ambiguous (word : String) (candidates : List String)
  /- An option takes no value but was given one. -/
  | ignoredValue (switch : Switch) (value : String)
  /- An option was given no value. -/
  | expectedValue (switch : Switch)
  /- A value is no integer. -/
  | invalidInteger (switch : Switch) (value : String)
  /- There is no source. -/
  | noSource
  /- Some words mean nothing. -/
  | unrecognized (words : List String)
  /- The width of the indent is negative. -/
  | negativeIndent
deriving DecidableEq, Repr

namespace Misuse

/- The wording of a misuse. -/
def message : Misuse → String
  | help =>
      "usage: [-o OUTPUT] [--indent N] [--tabs]"
        ++ " [--emit-ir EMIT_IR] [--json] source [source ...]"
  | ambiguous word candidates =>
      "ambiguous option: " ++ word ++ " could match "
        ++ String.intercalate ", " candidates
  | ignoredValue switch value =>
      "argument " ++ switch.label
        ++ ": ignored explicit argument " ++ Quoted.write value
  | expectedValue switch =>
      "argument " ++ switch.label ++ ": expected one argument"
  | invalidInteger switch value =>
      "argument " ++ switch.label ++ ": invalid int value: "
        ++ Quoted.write value
  | noSource =>
      "the following arguments are required: source"
  | unrecognized words =>
      "unrecognized arguments: "
        ++ String.intercalate " " words
  | negativeIndent => "--indent must be non-negative"

/- The exit code of a command that is not carried out. -/
def exitCode : Misuse → Nat
  | help => 0
  | _ => 2

end Misuse

end Command

end TraitMarkup
