import TraitMarkup.Command.Compile

/-
  The command line: reads sources, compiles them, and writes
  what comes of it.

  Key definitions include:
    * `Command.machine`
    * `main`
-/

namespace TraitMarkup

namespace Command

/- The bytes of a file, or why they cannot be read. -/
def readBytes
    (path : String) :
    IO (Except String (List UInt8)) := do
  try
    let bytes ← IO.FS.readBinFile path
    return .ok bytes.toList
  catch
    | .noFileOrDirectory .. => return .error PathFault.missing.reason
    | fault => return .error (toString fault)

/- The system that the program itself runs on. -/
def machine : Host IO where
  readFile := readBytes
  readStdin := do (← IO.getStdin).readToEnd
  writeFile path bytes :=
    IO.FS.writeBinFile path ⟨bytes.toArray⟩

end Command

end TraitMarkup

open TraitMarkup Command in
/- Carry out a command line. -/
def main
    (arguments : List String) :
    IO UInt32 := do
  let outcome ← perform machine arguments
  IO.print outcome.stdout
  IO.eprint outcome.stderr
  return outcome.exitCode.toUInt32
