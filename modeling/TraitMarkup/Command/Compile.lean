import TraitMarkup.Command.Directory
import TraitMarkup.Command.Settings
import TraitMarkup.Decl.Json
import TraitMarkup.Parse
import TraitMarkup.Rust.Printer
import TraitMarkup.Text.Newline
import TraitMarkup.Text.Utf8

/-
  Carrying out a command: from sources to files and text.

  Either every source declares a trait, and all of them are
  printed, or every source that does not is reported and nothing
  is written.

  Key definitions include:
    * `Command.Input`
    * `Command.Input.compile`
    * `Command.Outcome`
    * `Command.compile`
    * `Command.perform`
    * `Command.execute`
-/

namespace TraitMarkup

namespace Command

------------------------------------------------------------
-- Inputs
------------------------------------------------------------

/- A source under its name: its text, or why it has none. -/
structure Input where
  name : String
  text : Except String String

namespace Input

/- The word that stands for the standard input. -/
def stdinWord : String := "-"

/- The name of the standard input in diagnostics. -/
def stdinName : String := "<stdin>"

/- The text of bytes, with every line ending as a newline. -/
def textOf
    (bytes : List UInt8) :
    Except String String :=
  match Utf8.decode bytes with
  | .error fault => .error fault.message
  | .ok text => .ok (unifyNewlines text)

/- A file that was read, or not. -/
def ofFile
    (name : String)
    (bytes : Except String (List UInt8)) :
    Input where
  name := name
  text :=
    match bytes with
    | .error reason => .error reason
    | .ok bytes => textOf bytes

/-
  The standard input with the text that was read from it. Unlike
  a file, it has no reason why there is none: a system that
  cannot read or decode it stops the command.
-/
def ofStdin
    (text : String) :
    Input where
  name := stdinName
  text := .ok (unifyNewlines text)

/- Read the source of a name, which may be the standard input. -/
def read
    {m : Type → Type}
    [Monad m]
    (host : Host m)
    (source : String) :
    m Input := do
  if source = stdinWord then
    return ofStdin (← host.readStdin)
  else
    return ofFile source (← host.readFile source)

/- Read sources one after the other. -/
def readAll
    {m : Type → Type}
    [Monad m]
    (host : Host m) :
    List String → m (List Input)
  | [] => return []
  | source :: rest => do
      let input ← read host source
      return input :: (← readAll host rest)

/- The diagnostic for a source that cannot be read. -/
def unreadable
    (name reason : String) :
    Diagnostic where
  message := "cannot read source: " ++ reason
  code := some "TDL-IO"
  phase := some "driver"
  span := { file := some name }

/- The trait that an input declares, or a diagnostic. -/
def compile
    (input : Input) :
    Except Diagnostic TraitDecl :=
  match input.text with
  | .error reason => .error (unreadable input.name reason)
  | .ok text => TraitDecl.ofSource (some input.name) text

end Input

------------------------------------------------------------
-- Outcomes
------------------------------------------------------------

/- What a command does, files first. -/
structure Outcome where
  exitCode : Nat
  /- The files to write, in order. -/
  writes : List (String × String) := []
  stdout : String := ""
  stderr : String := ""
deriving DecidableEq, Repr

/- The report as one JSON object on a line. -/
def reportJson
    (exitCode : Nat)
    (diagnostics : List Diagnostic)
    (output : Option String) :
    String :=
  let shown :=
    match output with
    | none => []
    | some text => [("output", Json.str text)]
  Json.write .compact
    (.obj
      ([("exit_code", Json.int exitCode),
        ("diagnostics",
          .arr (diagnostics.map (·.toJson none)))] ++ shown))
    ++ "\n"

/- The lines of diagnostics, each with a newline. -/
def reportText
    (diagnostics : List Diagnostic) :
    String :=
  String.join
    ((diagnostics.flatMap Diagnostic.lines).map (· ++ "\n"))

/- What is done if some sources are at fault. -/
def Outcome.ofDiagnostics
    (settings : Settings)
    (diagnostics : List Diagnostic) :
    Outcome :=
  if settings.json then
    { exitCode := 1
      stdout := reportJson 1 diagnostics none }
  else
    { exitCode := 1
      stderr := reportText diagnostics }

/- The text of several declarations, a blank line between. -/
def renderAll
    (settings : Settings)
    (decls : List TraitDecl) :
    String :=
  let layout :=
    Layout.ofBlanks settings.indent settings.tabs true
  String.intercalate "\n" (decls.map (·.render layout))

/- The declarations as JSON. -/
def irText
    (decls : List TraitDecl) :
    String :=
  Json.write .spread (.arr (decls.map TraitDecl.toJson)) ++ "\n"

/- What is done if every source declares a trait. -/
def Outcome.ofDecls
    (settings : Settings)
    (decls : List TraitDecl) :
    Outcome :=
  let text := renderAll settings decls
  let ir :=
    match settings.emitIr with
    | none => []
    | some path => [(path, irText decls)]
  match settings.output, settings.json with
  | some path, true =>
      { exitCode := 0
        writes := ir ++ [(path, text)]
        stdout := reportJson 0 [] none }
  | some path, false =>
      { exitCode := 0
        writes := ir ++ [(path, text)] }
  | none, true =>
      { exitCode := 0
        writes := ir
        stdout := reportJson 0 [] (some text) }
  | none, false =>
      { exitCode := 0
        writes := ir
        stdout := text }

/- The diagnostics among results. -/
def diagnosticsOf
    (results : List (Except Diagnostic TraitDecl)) :
    List Diagnostic :=
  results.filterMap
    (fun result =>
      match result with
      | .error diagnostic => some diagnostic
      | .ok _ => none)

/- The declarations among results. -/
def declsOf
    (results : List (Except Diagnostic TraitDecl)) :
    List TraitDecl :=
  results.filterMap
    (fun result =>
      match result with
      | .error _ => none
      | .ok decl => some decl)

/- What a command does with its inputs. -/
def compile
    (settings : Settings)
    (inputs : List Input) :
    Outcome :=
  let results := inputs.map Input.compile
  match diagnosticsOf results with
  | [] => Outcome.ofDecls settings (declsOf results)
  | diagnostics@(_ :: _) =>
      Outcome.ofDiagnostics settings diagnostics

------------------------------------------------------------
-- Performing Commands
------------------------------------------------------------

/- The line that a misused command prints. -/
def misuseLine
    (misuse : Misuse) :
    String :=
  "traitxmlc: error: " ++ misuse.message

/- What a misused command does. -/
def Outcome.ofMisuse : Misuse → Outcome
  | .help =>
      { exitCode := 0
        stdout := Misuse.help.message ++ "\n" }
  | misuse =>
      { exitCode := misuse.exitCode
        stderr := misuseLine misuse ++ "\n" }

section

variable {m : Type → Type}
variable [Monad m]

/-
  Carry out settings on a system: read all sources, then write
  what comes of them. What is to be printed is returned.
-/
def Settings.perform
    (settings : Settings)
    (host : Host m) :
    m Outcome := do
  let inputs ← Input.readAll host settings.sources
  let outcome := compile settings inputs
  host.writeAll outcome.writes
  return outcome

/- Carry out a command line on a system. -/
def perform
    (host : Host m)
    (arguments : List String) :
    m Outcome :=
  match Settings.ofArguments arguments with
  | .error misuse => return .ofMisuse misuse
  | .ok settings => settings.perform host

end

/-
  A command after it ran in a directory: what became of the
  directory, and how the command ended. A command that a file
  stops prints nothing.
-/
structure Session where
  directory : Directory
  result : Except FileFault Outcome

/- Run a command line in a directory. -/
def execute
    (directory : Directory)
    (stdin : String)
    (arguments : List String) :
    Session :=
  match perform (Site.host id) arguments
      ⟨directory, .ok stdin⟩ with
  | .ok outcome site => ⟨site.directory, .ok outcome⟩
  | .error fault site => ⟨site.directory, .error fault⟩

end Command

end TraitMarkup
