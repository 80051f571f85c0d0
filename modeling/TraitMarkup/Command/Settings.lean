import TraitMarkup.Command.Usage
import TraitMarkup.Text.Integer

/-
  What a command line asks for.

  Words that start with a hyphen are options, unless they look
  like numbers or hold a blank. A long option may be shortened
  as long as it stays unique, and its value may follow after
  `=`. After the word `--` there are no more options.

  The sources are one run of words without an option between
  them. Words in any later run are not recognized.

  Key definitions include:
    * `Command.Settings`
    * `Command.Word`
    * `Command.Word.ofText`
    * `Command.Words.ofTexts`
    * `Command.Settings.ofArguments`
-/

namespace TraitMarkup

namespace Command

------------------------------------------------------------
-- Settings
------------------------------------------------------------

/- What the command is asked to do. -/
structure Settings where
  sources : List String
  output : Option String := none
  indent : Nat := 4
  tabs : Bool := false
  emitIr : Option String := none
  json : Bool := false
deriving DecidableEq, Repr

------------------------------------------------------------
-- Words
------------------------------------------------------------

/- What a word of the command line is. -/
inductive Word where
  /- A word on its own, such as a source. -/
  | plain (text : String)
  /- The word that ends the options. -/
  | separator
  /-
    An option, with the value glued to it. A strict one has to
    take that value; another one may go on with letters.
  -/
  | option
      (switch : Switch)
      (strict : Bool)
      (value : Option String)
  /- A word that looks like an option but is none. -/
  | unknown (text : String)
deriving DecidableEq, Repr

/- The parts of a text before and after the first `=`. -/
def splitAtEquals
    (text : String) :
    String × Option String :=
  let name := text.toList.takeWhile (· != '=')
  match text.toList.dropWhile (· != '=') with
  | [] => (text, none)
  | _ :: value =>
      (String.ofList name, some (String.ofList value))

/- Some digits, and nothing else. -/
def isDigits
    (text : List Char) :
    Bool :=
  !text.isEmpty && text.all (fun c => (digitValue? c).isSome)

/- A negative number such as `-1` or `-.5`. -/
def looksNegative
    (text : String) :
    Bool :=
  match text.toList with
  | '-' :: rest =>
      let whole := rest.takeWhile (· != '.')
      match rest.dropWhile (· != '.') with
      | [] => isDigits whole
      | _ :: fraction =>
          (whole.isEmpty || isDigits whole) && isDigits fraction
  | _ => false

/- The text starts with two hyphens. -/
def isLong
    (text : String) :
    Bool :=
  text.startsWith "--"

/-
  The options that a word may stand for: a long one may be
  shortened, a short one may have its value glued to it.
-/
def candidates
    (text : String) :
    List (String × Word) :=
  if isLong text then
    let (name, value) := splitAtEquals text
    (Switch.spelled.filter
      (fun entry => entry.1.startsWith name)).map
        (fun entry =>
          (entry.1, .option entry.2 true value))
  else
    let letter := String.ofList (text.toList.take 2)
    let value := String.ofList (text.toList.drop 2)
    (Switch.spelled.filter (fun entry => entry.1 = letter)).map
      (fun entry =>
        (entry.1, .option entry.2 false (some value)))

/- A word that is no option as it stands. -/
def Word.ofRest
    (text : String) :
    Word :=
  if looksNegative text || text.toList.contains ' ' then
    .plain text
  else
    .unknown text

/- A word that starts with a hyphen and has more to it. -/
def Word.ofHyphened
    (text : String) :
    Except Misuse Word :=
  let (name, value) := splitAtEquals text
  match Switch.ofSpelling? text, Switch.ofSpelling? name with
  | some switch, _ => .ok (.option switch true none)
  | none, some switch => .ok (.option switch true value)
  | none, none =>
      match candidates text with
      | [] => .ok (.ofRest text)
      | [(_, word)] => .ok word
      | several =>
          .error (.ambiguous text (several.map Prod.fst))

/- What a word is, as long as options are read. -/
def Word.ofText
    (text : String) :
    Except Misuse Word :=
  if text = "--" then
    .ok .separator
  else if text.startsWith "-" && text != "-" then
    Word.ofHyphened text
  else
    .ok (.plain text)

/- What the words of a command line are. -/
def Words.ofTexts : List String → Except Misuse (List Word)
  | [] => .ok []
  | text :: rest =>
      match Word.ofText text with
      | .error misuse => .error misuse
      | .ok .separator =>
          .ok (.separator :: rest.map .plain)
      | .ok word => (ofTexts rest).map (word :: ·)

------------------------------------------------------------
-- Reading Words
------------------------------------------------------------

/- What has been read of a command line. -/
structure Request where
  sources : List String := []
  extras : List String := []
  output : Option String := none
  indent : Int := 4
  tabs : Bool := false
  emitIr : Option String := none
  json : Bool := false
deriving DecidableEq, Repr

/- The text of a word that is no option. -/
def Word.bareText? : Word → Option String
  | plain text => some text
  | separator => some "--"
  | _ => none

/- The word is a source and no separator. -/
def Word.isPlain : Word → Bool
  | plain _ => true
  | _ => false

namespace Request

/-
  Take in a run of words without options. The first run that
  holds a source gives the sources, without the separator. All
  others are left over.
-/
def addRun
    (request : Request)
    (run : List Word) :
    Request :=
  let texts := run.filterMap Word.bareText?
  if request.sources.isEmpty && run.any Word.isPlain then
    { request with
      sources :=
        (run.erase .separator).filterMap Word.bareText? }
  else
    { request with extras := request.extras ++ texts }

/- Set an option that takes no value. -/
def setSwitch
    (request : Request) :
    Switch → Except Misuse Request
  | .help => .error .help
  | .tabs => .ok { request with tabs := true }
  | .json => .ok { request with json := true }
  | _ => .ok request

/- Set an option to a value. -/
def setValue
    (request : Request)
    (value : String) :
    Switch → Except Misuse Request
  | .output => .ok { request with output := some value }
  | .emitIr => .ok { request with emitIr := some value }
  | .indent =>
      match Integer.ofText? value with
      | none => .error (.invalidInteger .indent value)
      | some width => .ok { request with indent := width }
  | _ => .ok request

/-
  What is glued to the letter of an option without a value is
  more letters. The last of them may want a value of its own,
  which is then the next word. A letter that means nothing ends
  the row.
-/
def wanting
    (switch : Switch) :
    List Char → Except Misuse (Option Switch)
  | [] => .ok none
  | letter :: rest =>
      if letter = '-' then
        .error (.ignoredValue switch
          (String.ofList (letter :: rest)))
      else
        match Switch.ofSpelling?
            (String.ofList ['-', letter]) with
        | none => .ok none
        | some next =>
            if next.takesValue then
              .ok (if rest.isEmpty then some next else none)
            else
              match rest with
              | '=' :: value =>
                  .error (.ignoredValue next
                    (String.ofList value))
              | _ => wanting next rest

/- Set an option that stands before a row of letters. -/
def setRow
    (request : Request)
    (switch : Switch)
    (letters : String)
    (rest : List Word) :
    Except Misuse Request :=
  match wanting switch letters.toList, rest with
  | .error misuse, _ => .error misuse
  | .ok none, _ => request.setSwitch switch
  | .ok (some _), .plain _ :: _ => request.setSwitch switch
  | .ok (some next), _ => .error (.expectedValue next)

/- Set an option to the value that is glued to it. -/
def setGiven
    (request : Request)
    (switch : Switch)
    (strict : Bool)
    (value : String)
    (rest : List Word) :
    Except Misuse Request :=
  if switch.takesValue then
    request.setValue value switch
  else if strict then
    .error (.ignoredValue switch value)
  else
    request.setRow switch value rest

/-
  Take in the words from left to right. Here `run` holds the
  words without options that were met last, in order.
-/
def read
    (request : Request)
    (run : List Word) :
    List Word → Except Misuse Request
  | [] => .ok (request.addRun run)
  | .plain text :: rest =>
      read request (run ++ [.plain text]) rest
  | .separator :: rest =>
      read request (run ++ [.separator]) rest
  | .unknown text :: rest =>
      let after := request.addRun run
      read { after with extras := after.extras ++ [text] } []
        rest
  | .option switch strict (some given) :: rest =>
      match (request.addRun run).setGiven switch strict given
          rest with
      | .error misuse => .error misuse
      | .ok next => read next [] rest
  | .option switch _ none :: rest =>
      if switch.takesValue then
        match rest with
        | .plain given :: more =>
            match (request.addRun run).setValue given switch with
            | .error misuse => .error misuse
            | .ok next => read next [] more
        | _ => .error (.expectedValue switch)
      else
        match (request.addRun run).setSwitch switch with
        | .error misuse => .error misuse
        | .ok next => read next [] rest

/- The settings that were read, if they are complete. -/
def finish
    (request : Request) :
    Except Misuse Settings :=
  if request.sources.isEmpty then
    .error .noSource
  else if !request.extras.isEmpty then
    .error (.unrecognized request.extras)
  else if request.indent < 0 then
    .error .negativeIndent
  else
    .ok
      { sources := request.sources
        output := request.output
        indent := request.indent.toNat
        tabs := request.tabs
        emitIr := request.emitIr
        json := request.json }

end Request

/- The settings that a command line asks for. -/
def Settings.ofArguments
    (arguments : List String) :
    Except Misuse Settings :=
  match Words.ofTexts arguments with
  | .error misuse => .error misuse
  | .ok words =>
      match Request.read {} [] words with
      | .error misuse => .error misuse
      | .ok request => request.finish

end Command

end TraitMarkup
