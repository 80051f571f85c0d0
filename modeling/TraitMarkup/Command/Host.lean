/-
  What a command asks of the system around it.

  A command reads files and the standard input, and it writes
  files. Which files there are, what paths lead to and how the
  standard input is encoded is up to the system. So is what can
  go wrong, in the effects of its monad.

  Key definitions include:
    * `Command.Host`
    * `Command.Host.writeAll`
-/

namespace TraitMarkup

namespace Command

/-
  A system that a command may run on. A file that cannot be
  opened or read comes with the reason. All other faults are
  thrown: a path that cannot even be tried, a standard input
  that cannot be read or decoded, a file that cannot be written.
-/
structure Host
    (m : Type → Type) where
  /- The bytes of a file, or why there are none. -/
  readFile : String → m (Except String (List UInt8))
  /- The text that is left in the standard input. -/
  readStdin : m String
  /- Make a file hold the bytes. -/
  writeFile : String → List UInt8 → m Unit

/- Write files one after the other, as UTF-8. -/
def Host.writeAll
    {m : Type → Type}
    [Monad m]
    (host : Host m) :
    List (String × String) → m Unit
  | [] => pure ()
  | (path, text) :: rest => do
      host.writeFile path text.toUTF8.toList
      host.writeAll rest

end Command

end TraitMarkup
