import Prebuilt.Installed
import Prebuilt.Proofs.Above
import Prebuilt.Proofs.LinkFree

/-! Looking for an installed package. The places it might be in are looked at one after the other,
and the first that holds a manifest ends the search. -/

namespace Prebuilt

namespace Disk

variable {disk : Disk} {name : PackageName}

/-- What is logged of directories that are looked at. -/
def looked (name : PackageName) (dirs : List Path) : List Event :=
  dirs.map fun dir => .looking name dir

theorem firstInstalled_append (dirs more : List Path) :
    disk.firstInstalled name (dirs ++ more) =
      match disk.firstInstalled name dirs with
      | (some dir, events) => (some dir, events)
      | (none, events) =>
        ((disk.firstInstalled name more).1, events ++ (disk.firstInstalled name more).2) := by
  induction dirs with
  | nil => rfl
  | cons dir dirs ih =>
    rw [List.cons_append]
    by_cases h : disk.hasManifest dir = true
    · simp [firstInstalled, h]
    · simp only [firstInstalled, h, ih]
      rcases disk.firstInstalled name dirs with ⟨found, events⟩
      cases found <;> rfl

theorem firstInstalled_of_absent {dirs : List Path} (h : ∀ d ∈ dirs, disk.hasManifest d = false) :
    disk.firstInstalled name dirs = (none, looked name dirs) := by
  induction dirs with
  | nil => rfl
  | cons dir dirs ih =>
    have hdir := h dir List.mem_cons_self
    have hrest := ih fun d hd => h d (List.mem_cons_of_mem dir hd)
    simp [firstInstalled, hdir, hrest, looked]

theorem firstInstalled_of_first {before after : List Path} {dir : Path}
    (hbefore : ∀ d ∈ before, disk.hasManifest d = false) (hdir : disk.hasManifest dir = true) :
    disk.firstInstalled name (before ++ dir :: after) =
      (some dir, looked name (before ++ [dir])) := by
  have hhead : disk.firstInstalled name (dir :: after) = (some dir, [.looking name dir]) := by
    simp [firstInstalled, hdir]
  rw [firstInstalled_append, firstInstalled_of_absent hbefore, hhead]
  simp [looked]

theorem absent_or_first (disk : Disk) (dirs : List Path) :
    (∀ d ∈ dirs, disk.hasManifest d = false) ∨ ∃ before dir after, dirs = before ++ dir :: after ∧
      (∀ d ∈ before, disk.hasManifest d = false) ∧ disk.hasManifest dir = true := by
  cases hfind : dirs.find? disk.hasManifest with
  | none =>
    left
    intro d hd
    simpa using List.find?_eq_none.mp hfind d hd
  | some dir =>
    right
    obtain ⟨hdir, before, after, hsplit, hbefore⟩ := List.find?_eq_some_iff_append.mp hfind
    exact ⟨before, dir, after, hsplit, fun d hd => by simpa using hbefore d hd, hdir⟩

theorem firstInstalled_eq_some_iff {dirs : List Path} {dir : Path} {events : List Event} :
    disk.firstInstalled name dirs = (some dir, events) ↔
      ∃ before after, dirs = before ++ dir :: after ∧
        (∀ d ∈ before, disk.hasManifest d = false) ∧ disk.hasManifest dir = true ∧
        events = looked name (before ++ [dir]) := by
  constructor
  · intro h
    rcases absent_or_first disk dirs with habsent | ⟨before, first, after, rfl, hbefore, hfirst⟩
    · rw [firstInstalled_of_absent habsent] at h
      exact absurd (Prod.mk.inj h).1 (by simp)
    · rw [firstInstalled_of_first hbefore hfirst, Prod.mk.injEq] at h
      obtain rfl := Option.some.inj h.1
      exact ⟨before, after, rfl, hbefore, hfirst, h.2.symm⟩
  · rintro ⟨before, after, rfl, hbefore, hdir, rfl⟩
    exact firstInstalled_of_first hbefore hdir

theorem firstInstalled_eq_none_iff {dirs : List Path} {events : List Event} :
    disk.firstInstalled name dirs = (none, events) ↔
      (∀ d ∈ dirs, disk.hasManifest d = false) ∧ events = looked name dirs := by
  constructor
  · intro h
    rcases absent_or_first disk dirs with habsent | ⟨before, first, after, rfl, hbefore, hfirst⟩
    · rw [firstInstalled_of_absent habsent, Prod.mk.injEq] at h
      exact ⟨habsent, h.2.symm⟩
    · rw [firstInstalled_of_first hbefore hfirst] at h
      exact absurd (Prod.mk.inj h).1 (by simp)
  · rintro ⟨habsent, rfl⟩
    exact firstInstalled_of_absent habsent

theorem looking_mem_looked_iff {dirs : List Path} {d : Path} :
    Event.looking name d ∈ looked name dirs ↔ d ∈ dirs := by
  simp [looked]

/-- The answer rests on the directories that were looked at and on no others. -/
theorem firstInstalled_congr {other : Disk} {dirs : List Path}
    (h : ∀ d, .looking name d ∈ (disk.firstInstalled name dirs).2 →
      other.hasManifest d = disk.hasManifest d) :
    other.firstInstalled name dirs = disk.firstInstalled name dirs := by
  rcases absent_or_first disk dirs with habsent | ⟨before, dir, after, rfl, hbefore, hdir⟩
  · rw [firstInstalled_of_absent habsent] at h ⊢
    refine firstInstalled_of_absent fun d hd => ?_
    rw [h d (looking_mem_looked_iff.mpr hd), habsent d hd]
  · rw [firstInstalled_of_first hbefore hdir] at h ⊢
    refine firstInstalled_of_first (fun d hd => ?_) ?_
    · rw [h d (looking_mem_looked_iff.mpr (List.mem_append_left [dir] hd)), hbefore d hd]
    · rw [h dir (looking_mem_looked_iff.mpr (by simp)), hdir]

/-- From each root in turn and from all above it, nearest first, the modules directory is looked
into for the package. The first place with a manifest is the answer and the last one looked at, and
nothing else of the disk matters. Without one all are looked at. Roots behind others count only if
there is nothing to be found from those. -/
theorem looks_until_first_manifest (disk : Disk) (name : PackageName) (roots : List Path) :
    let places := roots.flatMap fun root => root.ancestors.map fun dir =>
      name.components.foldl (fun place c => place.join ⟨c⟩) (dir.join ⟨"node_modules"⟩)
    let holds := fun d : Path => disk.isFile (d.join ⟨"package.json"⟩)
    let search := disk.findPackage name
    (∀ root ∈ roots, root.Ascends root.ancestors) ∧
    (∀ dir events, search roots = (some dir, events) ↔
      ∃ before after, places = before ++ dir :: after ∧ (∀ d ∈ before, holds d = false) ∧
        holds dir = true ∧ events = (before ++ [dir]).map fun d => .looking name d) ∧
    (∀ events, search roots = (none, events) ↔
      (∀ d ∈ places, holds d = false) ∧ events = places.map fun d => .looking name d) ∧
    (∀ other : Disk, (∀ d, .looking name d ∈ (search roots).2 →
        other.isFile (d.join ⟨"package.json"⟩) = holds d) →
      other.findPackage name roots = search roots) ∧
    (∀ more, search (roots ++ more) =
      match search roots with
      | (some dir, events) => (some dir, events)
      | (none, events) => ((search more).1, events ++ (search more).2)) ∧
    (∀ d, (Event.looking name d).message = "looking for " ++ name.text ++ " in " ++ d.text) ∧
    ∀ (fs : FileSystem) (cwd : Place) (p : Path), (fs.disk cwd).isFile p = true ↔
      (∃ content, fs.entryAt cwd p = .ok (.bytes content)) ∨
        ∃ library, fs.entryAt cwd p = .ok (.library library) := by
  intro places holds search
  refine ⟨fun root _ => root.ascends_ancestors, fun dir events => firstInstalled_eq_some_iff,
    fun events => firstInstalled_eq_none_iff, fun other h => firstInstalled_congr h, fun more => ?_,
    fun d => rfl, fun fs cwd p => ?_⟩
  · have hplaces : name.places (roots ++ more) = name.places roots ++ name.places more :=
      List.flatMap_append
    simp only [search, findPackage, hplaces]
    exact firstInstalled_append _ _
  · rw [FileSystem.isFile_disk_iff_entryAt]
    constructor
    · rintro ⟨e, he, hfile⟩
      cases e with
      | bytes content => exact .inl ⟨content, he⟩
      | library library => exact .inr ⟨library, he⟩
      | dir => simp [FileEntry.isFile] at hfile
      | link target => simp [FileEntry.isFile] at hfile
    · rintro (⟨content, he⟩ | ⟨library, he⟩)
      · exact ⟨_, he, rfl⟩
      · exact ⟨_, he, rfl⟩

end Disk

end Prebuilt
