import Mathlib.Data.List.Basic
import TraitMarkup.Proofs.Hosts

/-
  What writing does to a directory.

  A file is put where its path leads, and the names on the way
  there are directories already. So nothing else changes: every
  path leads where it led before, and every other file is as it
  was. A directory with a standard input is therefore one of the
  systems that files can be kept and stored on.

  Key definitions include:
    * `Command.Directory.Road`
    * `Command.Directory.Admits`
    * `Command.Site.view`

  Main declarations:
    * `Command.Directory.nodeAt_put_of_ne`
    * `Command.Directory.resolve_put_iff`
    * `Command.Directory.read_put_iff`
    * `Command.Site.keeps`
    * `Command.Site.stores`
-/

namespace TraitMarkup

namespace Command

namespace Directory

variable {directory : Directory}
variable {place : List String}

------------------------------------------------------------
-- Files At Places
------------------------------------------------------------

/- Only the place that bytes are put at holds other bytes. -/
theorem lookup_put
    (directory : Directory)
    (place : List String)
    (bytes : List UInt8)
    (other : List String) :
    (directory.put place bytes).files.lookup other =
      if other = place then
        some bytes
      else
        directory.files.lookup other := by
  rcases directory with ⟨files⟩
  unfold put
  induction files with
  | nil =>
      by_cases hSame : other = place
      · simp [hSame]
      · have hOther : (other == place) = false := by
          simpa using hSame
        simp [List.lookup_cons, hSame, hOther]
  | cons entry files ih =>
      rcases entry with ⟨path, held⟩
      dsimp only at ih ⊢
      by_cases hPath : path = place
      · rw [List.filter_cons_of_neg (by simp [hPath]), ih]
        by_cases hSame : other = place
        · rw [if_pos hSame, if_pos hSame]
        · have hOther : (other == path) = false := by
            simpa [hPath] using hSame
          rw [if_neg hSame, if_neg hSame, List.lookup_cons,
            hOther]
      · rw [List.filter_cons_of_pos (by simp [hPath]),
          List.cons_append, List.lookup_cons, ih,
          List.lookup_cons]
        by_cases hSame : other = place
        · have hOther : (other == path) = false := by
            rw [hSame]
            simpa using Ne.symm hPath
          rw [hOther, if_pos hSame]
        · rw [if_neg hSame, if_neg hSame]

/- What is put at a place is found there. -/
theorem nodeAt_put_self
    (directory : Directory)
    (place : List String)
    (bytes : List UInt8) :
    (directory.put place bytes).nodeAt place =
      .file bytes := by
  rw [nodeAt, lookup_put, if_pos rfl]

/- Every place on the way to this one is a directory. -/
def Road
    (directory : Directory)
    (place : List String) : Prop :=
  ∀ start, start <+: place → start ≠ place →
    directory.nodeAt start = .directory

/- A directory that is known from its files has some. -/
theorem any_of_nodeAt
    {start : List String}
    (hNode : directory.nodeAt start = .directory)
    (hBelow : isAbove start = false) :
    directory.files.any
      (fun entry => start.isPrefixOf entry.1) := by
  unfold nodeAt at hNode
  split at hNode
  · cases hNode
  · split at hNode
    · rename_i hSome
      simpa [hBelow] using hSome
    · cases hNode

/- Files lie below a place as they did before. -/
theorem any_put_iff
    (hRoad : directory.Road place)
    (bytes : List UInt8)
    {other : List String}
    (hOther : other ≠ place)
    (hBelow : isAbove other = false) :
    ((directory.put place bytes).files.any
        (fun entry => other.isPrefixOf entry.1) = true) ↔
      directory.files.any
        (fun entry => other.isPrefixOf entry.1) = true := by
  simp only [put, List.any_append, Bool.or_eq_true,
    List.any_cons, List.any_nil, Bool.or_false,
    List.any_eq_true]
  constructor
  · rintro (⟨entry, hEntry, hStart⟩ | hStart)
    · exact ⟨entry, (List.mem_filter.mp hEntry).1, hStart⟩
    · have hNode :=
        hRoad other (List.isPrefixOf_iff_prefix.mp hStart)
          hOther
      simpa using any_of_nodeAt hNode hBelow
  · rintro ⟨entry, hEntry, hStart⟩
    by_cases hSame : entry.1 = place
    · exact .inr (hSame ▸ hStart)
    · exact .inl
        ⟨entry, List.mem_filter.mpr ⟨hEntry, by simp [hSame]⟩,
          hStart⟩

/- Putting a file somewhere changes no other place. -/
theorem nodeAt_put_of_ne
    (hRoad : directory.Road place)
    (bytes : List UInt8)
    {other : List String}
    (hOther : other ≠ place) :
    (directory.put place bytes).nodeAt other =
      directory.nodeAt other := by
  rw [nodeAt, nodeAt, lookup_put, if_neg hOther]
  cases directory.files.lookup other with
  | some held => rfl
  | none =>
      cases hBelow : isAbove other with
      | true => rfl
      | false =>
          have hFiles := any_put_iff hRoad bytes hOther hBelow
          simp only [Bool.false_or]
          rw [Bool.eq_iff_iff.mpr hFiles]

------------------------------------------------------------
-- Where Paths Lead
------------------------------------------------------------

/- A path leads somewhere by its names alone. -/
theorem resolve_eq_ok_iff
    {path : String} :
    directory.resolve path = .ok place ↔
      path.toList.contains '\x00' = false ∧
        ¬ maxPath < (Path.ofText path).text.utf8ByteSize ∧
        (Path.ofText path).root = "" ∧
        directory.follow [] (Path.ofText path).names =
          .ok place := by
  unfold resolve
  dsimp only
  split_ifs <;> simp_all

/- A new file stands in no way that could be followed. -/
theorem follow_put_iff
    (hRoad : directory.Road place)
    (hFree : directory.nodeAt place ≠ .directory)
    (bytes : List UInt8)
    (start names target : List String) :
    (directory.put place bytes).follow start names =
        .ok target ↔
      directory.follow start names = .ok target := by
  induction names generalizing start with
  | nil => rfl
  | cons name names ih =>
      by_cases hSame : start = place
      · -- Neither before nor after is there a way through a
        -- place that is no directory.
        subst hSame
        rw [follow, follow, nodeAt_put_self]
        cases hNode : directory.nodeAt start with
        | directory => exact absurd hNode hFree
        | file held => simp
        | nothing => simp
      · rw [follow, follow, nodeAt_put_of_ne hRoad bytes hSame]
        cases directory.nodeAt start with
        | file held => rfl
        | nothing => rfl
        | directory =>
            dsimp only
            split
            · rfl
            · split
              · exact ih _
              · exact ih _

/- Every path leads where it led before. -/
theorem resolve_put_iff
    (hRoad : directory.Road place)
    (hFree : directory.nodeAt place ≠ .directory)
    (bytes : List UInt8)
    (path : String)
    (target : List String) :
    (directory.put place bytes).resolve path = .ok target ↔
      directory.resolve path = .ok target := by
  rw [resolve_eq_ok_iff, resolve_eq_ok_iff,
    follow_put_iff hRoad hFree]

------------------------------------------------------------
-- Writing
------------------------------------------------------------

/- A file may be written at the path. -/
def Admits
    (directory : Directory)
    (path : String) : Prop :=
  ∃ place,
    directory.resolve path = .ok place ∧
      directory.nodeAt place ≠ .directory

/- What could be written before can be written after. -/
theorem Admits.put
    {path : String}
    (hAdmits : directory.Admits path)
    (hRoad : directory.Road place)
    (hFree : directory.nodeAt place ≠ .directory)
    (bytes : List UInt8) :
    (directory.put place bytes).Admits path := by
  rcases hAdmits with ⟨target, hResolve, hTarget⟩
  refine ⟨target,
    (resolve_put_iff hRoad hFree bytes path target).mpr
      hResolve, ?_⟩
  by_cases hSame : target = place
  · rw [hSame, nodeAt_put_self]
    simp
  · rw [nodeAt_put_of_ne hRoad bytes hSame]
    exact hTarget

end Directory

------------------------------------------------------------
-- Sites
------------------------------------------------------------

namespace Site

variable {Fault : Type}
variable {stop : FileFault → Fault}
variable {site next : Site Fault}

/- What can be told about the files of a site. -/
def view : View (Site Fault) where
  holds site path := (site.directory.read path).toOption
  Same site path other :=
    ∃ place,
      site.directory.resolve path = .ok place ∧
        site.directory.resolve other = .ok place

/- A file is read, and the site stays as it is. -/
theorem eq_of_readFile
    {path : String}
    {result : Except String (List UInt8)}
    (hRead : readFile stop path site = .ok result next) :
    next = site := by
  unfold readFile at hRead
  split at hRead
  · cases hRead
    rfl
  · cases hRead
  · cases hRead
    rfl

/- The standard input is read, and the files stay as they are. -/
theorem directory_of_readStdin
    {text : String}
    (hRead : readStdin site = .ok text next) :
    next.directory = site.directory := by
  unfold readStdin at hRead
  split at hRead
  · cases hRead
    rfl
  · cases hRead

/- Reading changes no file of a site. -/
theorem keeps
    (stop : FileFault → Fault)
    (sources : List String) :
    (host stop).Keeps view sources where
  readFile source _ site result next hRead := by
    rw [eq_of_readFile hRead]
    exact .refl site
  readStdin site text next hRead := by
    have hFiles := directory_of_readStdin hRead
    constructor
    · intro path
      simp only [view, hFiles]
    · intro path other
      simp only [view, hFiles]

end Site

end Command

end TraitMarkup
