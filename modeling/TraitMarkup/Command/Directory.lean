import TraitMarkup.Command.Host
import TraitMarkup.Text.Quoted
import TraitMarkup.Text.Utf8

/-
  A directory of files in memory, for commands to run in.

  A path is a list of names. Empty names and `.` are dropped,
  so the empty path is the directory itself. A directory inside
  it exists as long as some file lies in it. The directories
  above it exist too, but nothing else is known to lie there.

  Together with a standard input, a directory is a system that
  commands may run on. It is a small one: there are no links and
  no permissions, and nothing lies outside the directory.

  Key definitions include:
    * `Command.Path`
    * `Command.PathFault`
    * `Command.Directory`
    * `Command.Directory.read`
    * `Command.Directory.write`
    * `Command.Site`
    * `Command.Site.ofBytes`
    * `Command.Site.host`
-/

namespace TraitMarkup

namespace Command

------------------------------------------------------------
-- Paths
------------------------------------------------------------

/- A path: names after a root, which is empty or of slashes. -/
structure Path where
  root : String
  names : List String
deriving DecidableEq, Repr

namespace Path

/- The root that a text begins with. Two slashes are kept. -/
def rootOf
    (text : String) :
    String :=
  match text.toList.takeWhile (· = '/') with
  | [] => ""
  | ['/', '/'] => "//"
  | _ => "/"

/-
  The names between the slashes of a text. Here `name` is what
  has been read of the first one.
-/
def namesOf
    (name : List Char) :
    List Char → List String
  | [] => [String.ofList name]
  | c :: rest =>
      if c = '/' then
        String.ofList name :: namesOf [] rest
      else
        namesOf (name ++ [c]) rest

/- The path that a text stands for. -/
def ofText
    (text : String) :
    Path where
  root := rootOf text
  names :=
    (namesOf [] text.toList).filter
      (fun name => name != "" && name != ".")

/- The text of a path. -/
def text
    (path : Path) :
    String :=
  if path.root = "" && path.names.isEmpty then
    "."
  else
    path.root ++ String.intercalate "/" path.names

end Path

------------------------------------------------------------
-- Faults
------------------------------------------------------------

/- Why a path cannot be read or written. -/
inductive PathFault where
  | missing
  | notDirectory
  | isDirectory
  | tooLong
  | nullCharacter
deriving DecidableEq, Repr

namespace PathFault

/- The wording of a fault. -/
def reason : PathFault → String
  | missing => "No such file or directory"
  | notDirectory => "Not a directory"
  | isDirectory => "Is a directory"
  | tooLong => "File name too long"
  | nullCharacter => "embedded null byte"

/- The number of a fault, if the system counts it. -/
def number? : PathFault → Option Nat
  | missing => some 2
  | notDirectory => some 20
  | isDirectory => some 21
  | tooLong => some 36
  | nullCharacter => none

/- The wording of a fault with the path it is about. -/
def message
    (fault : PathFault)
    (path : String) :
    String :=
  match fault.number? with
  | none => fault.reason
  | some number =>
      "[Errno " ++ toString number ++ "] " ++ fault.reason
        ++ ": " ++ Quoted.write (Path.ofText path).text

end PathFault

------------------------------------------------------------
-- Directories
------------------------------------------------------------

/- Files under their paths, in order. -/
structure Directory where
  files : List (List String × List UInt8)
deriving DecidableEq, Repr

/- What a path leads to. -/
inductive Node where
  | file (bytes : List UInt8)
  | directory
  | nothing
deriving DecidableEq, Repr

namespace Directory

/- The place is the directory itself or one above it. -/
def isAbove
    (place : List String) :
    Bool :=
  place.all (· = "..")

/- What lies at a place. -/
def nodeAt
    (directory : Directory)
    (place : List String) :
    Node :=
  match directory.files.lookup place with
  | some bytes => .file bytes
  | none =>
      if isAbove place ||
          directory.files.any
            (fun entry => place.isPrefixOf entry.1) then
        .directory
      else
        .nothing

/- The greatest number of bytes in a name. -/
def maxName : Nat := 255

/- The greatest number of bytes in a path. -/
def maxPath : Nat := 4095

/-
  Follow names from a directory to a place. Every name but the
  last has to lead to a directory.
-/
def follow
    (directory : Directory)
    (place : List String) :
    List String → Except PathFault (List String)
  | [] => .ok place
  | name :: rest =>
      match directory.nodeAt place with
      | .nothing => .error .missing
      | .file _ => .error .notDirectory
      | .directory =>
          if maxName < name.utf8ByteSize then
            .error .tooLong
          else if name = ".." && !isAbove place then
            follow directory place.dropLast rest
          else
            follow directory (place ++ [name]) rest

/- The place that a path leads to. -/
def resolve
    (directory : Directory)
    (text : String) :
    Except PathFault (List String) :=
  let path := Path.ofText text
  if text.toList.contains '\x00' then
    .error .nullCharacter
  else if maxPath < path.text.utf8ByteSize then
    .error .tooLong
  else if path.root = "" then
    directory.follow [] path.names
  else if isAbove path.names then
    .error .isDirectory
  else
    .error .missing

/- The bytes of the file at a path. -/
def read
    (directory : Directory)
    (path : String) :
    Except PathFault (List UInt8) :=
  match directory.resolve path with
  | .error fault => .error fault
  | .ok place =>
      match directory.nodeAt place with
      | .file bytes => .ok bytes
      | .directory => .error .isDirectory
      | .nothing => .error .missing

/- Put bytes at a place that holds a file or nothing. -/
def put
    (directory : Directory)
    (place : List String)
    (bytes : List UInt8) :
    Directory :=
  ⟨directory.files.filter (fun entry => entry.1 ≠ place)
    ++ [(place, bytes)]⟩

/- Write bytes to the file at a path. -/
def write
    (directory : Directory)
    (path : String)
    (bytes : List UInt8) :
    Except PathFault Directory :=
  match directory.resolve path with
  | .error fault => .error fault
  | .ok place =>
      match directory.nodeAt place with
      | .directory => .error .isDirectory
      | .file _ | .nothing => .ok (directory.put place bytes)

end Directory

------------------------------------------------------------
-- Sites
------------------------------------------------------------

/- A file that stops a command. -/
structure FileFault where
  path : String
  fault : PathFault
deriving DecidableEq, Repr

namespace FileFault

/- The wording of the fault. -/
def message
    (failed : FileFault) :
    String :=
  failed.fault.message failed.path

end FileFault

/-
  A directory and what the standard input gives when it is read:
  its text, or a fault.
-/
structure Site
    (Fault : Type) where
  directory : Directory
  stdin : Except Fault String

namespace Site

variable {Fault : Type}

/-
  Read a file. A path with a null character cannot be tried and
  stops the command.
-/
def readFile
    (stop : FileFault → Fault)
    (path : String) :
    EStateM Fault (Site Fault)
      (Except String (List UInt8)) :=
  fun site =>
    match site.directory.read path with
    | .ok bytes => .ok (.ok bytes) site
    | .error .nullCharacter =>
        .error (stop ⟨path, .nullCharacter⟩) site
    | .error fault => .ok (.error fault.reason) site

/- Read the standard input. Nothing is left in it then. -/
def readStdin :
    EStateM Fault (Site Fault) String :=
  fun site =>
    match site.stdin with
    | .ok text => .ok text { site with stdin := .ok "" }
    | .error fault => .error fault site

/- Write a file. -/
def writeFile
    (stop : FileFault → Fault)
    (path : String)
    (bytes : List UInt8) :
    EStateM Fault (Site Fault) Unit :=
  fun site =>
    match site.directory.write path bytes with
    | .ok next => .ok () { site with directory := next }
    | .error fault => .error (stop ⟨path, fault⟩) site

/- A site as a system that commands run on. -/
def host
    (stop : FileFault → Fault) :
    Host (EStateM Fault (Site Fault)) where
  readFile := readFile stop
  readStdin := readStdin
  writeFile := writeFile stop

end Site

end Command

end TraitMarkup
