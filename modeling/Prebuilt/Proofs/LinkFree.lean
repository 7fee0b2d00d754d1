import Prebuilt.FileSystem
import Prebuilt.Proofs.Ascent
import Prebuilt.Proofs.Naming

/-! File systems without links. There a path leads where its steps say, one step at a time, and the
segments that are no steps matter only at its end. -/

namespace Prebuilt

/-- A step that does not look at what is there. -/
def enter (place : Place) (s : Segment) : Place :=
  if s = ['.', '.'] then place.dropLast else place ++ [s]

namespace Path

def start (cwd : Place) (p : Path) : Place := if p.isAbsolute then [] else cwd

/-- The place a path stands for by its spelling alone: the directory it is relative to, with the
dots worked out. -/
def denoted (cwd : Place) (p : Path) : Place := p.steps.foldl enter (p.start cwd)

def joinNames (p : Path) (names : List Segment) : Path :=
  names.foldl (fun at' s => at'.join (ofChars s)) p

end Path

theorem foldl_enter_of_no_up {steps : List Segment} (h : ['.', '.'] ∉ steps) (place : Place) :
    steps.foldl enter place = place ++ steps := by
  induction steps generalizing place with
  | nil => simp
  | cons s steps ih =>
    rw [List.mem_cons, not_or] at h
    rw [List.foldl_cons, ih h.2, enter, if_neg (Ne.symm h.1), List.append_assoc,
      List.singleton_append]

namespace FileSystem

def LinkFree (fs : FileSystem) : Prop := ∀ place target, fs.entry? place ≠ some (.link target)

theorem linkFree_of_table {fs : FileSystem} (h : ∀ row ∈ fs.table, ∀ target, row.2 ≠ .link target) :
    fs.LinkFree := by
  intro place target he
  unfold entry? at he
  split at he
  · cases he
  · obtain ⟨row, hrow, hlink⟩ := Option.map_eq_some_iff.mp he
    exact h row (List.mem_of_find?_eq_some hrow) target hlink

/-- The names lead from a directory through directories to a file. -/
def holdsFile (fs : FileSystem) (place : Place) : List Segment → Bool
  | [] => fs.entry? place |>.any FileEntry.isFile
  | s :: rest => fs.isDir place && fs.holdsFile (place ++ [s]) rest

/-- A name that any directory can hold. -/
structure Plain (s : Segment) : Prop extends PackageName.Proper s where
  nul_notMem : '\x00' ∉ s
  short : nameBytes s ≤ maxName

theorem Plain.not_blank {s : Segment} (h : Plain s) : Path.isBlank s = false := by
  simp [Path.isBlank, h.ne_nil, h.ne_here]

variable {fs : FileSystem} {cwd place : Place}

section Entry

variable {p : Path}

theorem entryAt_eq_ok_iff {e : FileEntry} : fs.entryAt cwd p = .ok e ↔
    p.text.utf8ByteSize ≤ maxPath ∧
      ∃ place, fs.locate cwd p = .ok place ∧ fs.entry? place = some e := by
  rw [entryAt]
  cases fs.locate cwd p with
  | error e =>
    cases e <;> by_cases hsize : maxPath < p.text.utf8ByteSize <;> simp [hsize, Except.bind]
  | ok place =>
    by_cases hsize : maxPath < p.text.utf8ByteSize
    · simp [hsize, not_le.mpr hsize]
    · simp only [hsize, if_false, Except.bind, not_lt.mp hsize, true_and, Except.ok.injEq,
        exists_eq_left']
      cases fs.entry? place <;> simp

theorem isFile_disk_iff_entryAt : (fs.disk cwd).isFile p = true ↔
    ∃ e, fs.entryAt cwd p = .ok e ∧ e.isFile = true := by
  simp only [disk]
  cases fs.entryAt cwd p <;> simp

theorem isFile_disk_iff : (fs.disk cwd).isFile p = true ↔ p.text.utf8ByteSize ≤ maxPath ∧
    ∃ place e, fs.locate cwd p = .ok place ∧ fs.entry? place = some e ∧ e.isFile = true := by
  simp only [isFile_disk_iff_entryAt, entryAt_eq_ok_iff]
  grind

end Entry

/-- Where one segment leads from a place if there is no link. -/
def pass (fs : FileSystem) (place : Place) (s : Segment) : Except FileError Place :=
  if !fs.isDir place then .error .notDirectory
  else if Path.isBlank s then .ok place
  else if s = ['.', '.'] then .ok place.dropLast
  else if maxName < nameBytes s then .error .nameTooLong
  else if fs.entry? (place ++ [s]) = none then .error .notFound
  else .ok (place ++ [s])

theorem follow_eq_foldlM (hfs : fs.LinkFree) (links : Nat) (place : Place) (todo : List Segment) :
    fs.follow links place todo = todo.foldlM fs.pass place := by
  induction todo generalizing place with
  | nil => rw [follow]; rfl
  | cons s rest ih =>
    rw [follow, List.foldlM_cons, pass]
    split
    · rfl
    · split
      · exact ih place
      · split
        · exact ih _
        · split
          · rfl
          · cases he : fs.entry? (place ++ [s]) with
            | none => rfl
            | some e =>
              cases e with
              | link target => exact absurd he (hfs _ target)
              | dir => exact ih _
              | bytes content => exact ih _
              | library l => exact ih _

section Pass

variable {s : Segment} {next goal : Place} {segments names : List Segment}

theorem pass_of_not_isDir (h : fs.isDir place = false) (s : Segment) :
    fs.pass place s = .error .notDirectory := by
  simp [pass, h]

theorem pass_blank (h : fs.isDir place = true) (hs : Path.isBlank s = true) :
    fs.pass place s = .ok place := by
  simp [pass, h, hs]

theorem isDir_of_pass (h : fs.pass place s = .ok next) : fs.isDir place = true := by
  by_contra hd
  rw [pass_of_not_isDir (by simpa using hd)] at h
  cases h

/-- Whatever a segment leads to, it is where its spelling points. -/
theorem eq_enter_of_pass (hs : Path.isBlank s = false) (h : fs.pass place s = .ok next) :
    next = enter place s := by
  have hdir := isDir_of_pass h
  simp only [pass, hdir, hs, Bool.not_true, Bool.false_eq_true, if_false] at h
  rw [enter]
  split at h
  · next hup =>
    rw [if_pos hup]
    exact (Except.ok.inj h).symm
  · next hup =>
    rw [if_neg hup]
    split at h
    · cases h
    · split at h
      · cases h
      · exact (Except.ok.inj h).symm

theorem pass_plain (hs : Plain s) (h : fs.isDir place = true) :
    fs.pass place s =
      if fs.entry? (place ++ [s]) = none then .error .notFound else .ok (place ++ [s]) := by
  simp only [pass, h, hs.not_blank, hs.ne_up, hs.short, Bool.not_true, Bool.false_eq_true,
    if_false, not_lt.mpr]

theorem foldlM_pass_cons (h : (s :: segments).foldlM fs.pass place = .ok goal) :
    ∃ next, fs.pass place s = .ok next ∧ segments.foldlM fs.pass next = .ok goal := by
  rw [List.foldlM_cons] at h
  cases hp : fs.pass place s with
  | error e =>
    rw [hp] at h
    cases h
  | ok next =>
    rw [hp] at h
    exact ⟨next, rfl, h⟩

theorem foldlM_pass_append {more : List Segment}
    (h : (segments ++ more).foldlM fs.pass place = .ok goal) :
    ∃ next, segments.foldlM fs.pass place = .ok next ∧ more.foldlM fs.pass next = .ok goal := by
  induction segments generalizing place with
  | nil => exact ⟨place, rfl, h⟩
  | cons s segments ih =>
    obtain ⟨next, hp, hrest⟩ := foldlM_pass_cons h
    obtain ⟨mid, hmid, hmore⟩ := ih hrest
    refine ⟨mid, ?_, hmore⟩
    rw [List.foldlM_cons, hp]
    exact hmid

/-- What the segments of a path lead to its steps lead to as well. -/
theorem foldlM_pass_solid (h : segments.foldlM fs.pass place = .ok goal) :
    (Path.solid segments).foldlM fs.pass place = .ok goal := by
  induction segments generalizing place with
  | nil => exact h
  | cons s segments ih =>
    obtain ⟨next, hp, hrest⟩ := foldlM_pass_cons h
    by_cases hs : Path.isBlank s = true
    · have hnext : next = place := by
        rw [pass_blank (isDir_of_pass hp) hs] at hp
        exact (Except.ok.inj hp).symm
      rw [Path.solid_cons_blank hs]
      exact ih (hnext ▸ hrest)
    · rw [Bool.not_eq_true] at hs
      rw [Path.solid_cons_step hs, List.foldlM_cons, hp]
      exact ih hrest

theorem foldlM_pass_of_not_isDir (h : fs.isDir place = false) (hne : segments ≠ []) :
    segments.foldlM fs.pass place = .error .notDirectory := by
  obtain ⟨s, rest, rfl⟩ := List.exists_cons_of_ne_nil hne
  rw [List.foldlM_cons, pass_of_not_isDir h]
  rfl

/-- In front of another segment those that are no steps change nothing. -/
theorem foldlM_pass_front (front : List Segment) (last : Segment) :
    (front ++ [last]).foldlM fs.pass place =
      (Path.solid front ++ [last]).foldlM fs.pass place := by
  induction front generalizing place with
  | nil => rfl
  | cons s front ih =>
    by_cases hs : Path.isBlank s = true
    · rw [Path.solid_cons_blank hs, ← ih, List.cons_append, List.foldlM_cons]
      by_cases hd : fs.isDir place = true
      · rw [pass_blank hd hs]
        rfl
      · rw [Bool.not_eq_true] at hd
        rw [pass_of_not_isDir hd, foldlM_pass_of_not_isDir hd (by simp)]
        rfl
    · rw [Bool.not_eq_true] at hs
      simp only [Path.solid_cons_step hs, List.cons_append, List.foldlM_cons, ih]

theorem foldl_enter_of_pass (hsolid : ∀ s ∈ segments, Path.isBlank s = false)
    (h : segments.foldlM fs.pass place = .ok goal) : goal = segments.foldl enter place := by
  induction segments generalizing place with
  | nil => exact (Except.ok.inj h).symm
  | cons s segments ih =>
    obtain ⟨next, hp, hrest⟩ := foldlM_pass_cons h
    have hnext := eq_enter_of_pass (hsolid s List.mem_cons_self) hp
    rw [List.foldl_cons, ← hnext]
    exact ih (fun t ht => hsolid t (List.mem_cons_of_mem s ht)) hrest

/-- A walk that ends at an entry starts at one. -/
theorem exists_entry_of_walk {e : FileEntry} (h : segments.foldlM fs.pass place = .ok goal)
    (he : fs.entry? goal = some e) : ∃ there, fs.entry? place = some there := by
  cases segments with
  | nil =>
    obtain rfl := Except.ok.inj h
    exact ⟨e, he⟩
  | cons s segments =>
    obtain ⟨next, hp, -⟩ := foldlM_pass_cons h
    exact ⟨.dir, by simpa [isDir] using isDir_of_pass hp⟩

theorem holdsFile_iff (hnames : ∀ s ∈ names, Plain s) : fs.holdsFile place names = true ↔
    ∃ goal e, names.foldlM fs.pass place = .ok goal ∧ fs.entry? goal = some e ∧
      e.isFile = true := by
  induction names generalizing place with
  | nil => simp [holdsFile, pure, Except.pure, Option.any_eq_true]
  | cons s names ih =>
    have hs := hnames s List.mem_cons_self
    rw [holdsFile, Bool.and_eq_true, ih fun t ht => hnames t (List.mem_cons_of_mem s ht)]
    constructor
    · rintro ⟨hd, goal, e, hwalk, he, hfile⟩
      have hentry : fs.entry? (place ++ [s]) ≠ none := by
        obtain ⟨there, hthere⟩ := exists_entry_of_walk hwalk he
        exact Option.ne_none_iff_exists'.mpr ⟨there, hthere⟩
      refine ⟨goal, e, ?_, he, hfile⟩
      rw [List.foldlM_cons, pass_plain hs hd, if_neg hentry]
      exact hwalk
    · rintro ⟨goal, e, hwalk, he, hfile⟩
      obtain ⟨next, hp, hwalk⟩ := foldlM_pass_cons hwalk
      have hnext := eq_enter_of_pass hs.not_blank hp
      rw [enter, if_neg hs.ne_up] at hnext
      exact ⟨isDir_of_pass hp, goal, e, hnext ▸ hwalk, he, hfile⟩

end Pass

section Locate

variable {p : Path} {names : List Segment}

theorem steps_joinNames (p : Path) (hnames : ∀ s ∈ names, Plain s) :
    (p.joinNames names).steps = p.steps ++ names := by
  induction names generalizing p with
  | nil => exact (List.append_nil _).symm
  | cons s names ih =>
    have hs := hnames s List.mem_cons_self
    have hrest := ih (p.join (.ofChars s)) fun t ht => hnames t (List.mem_cons_of_mem s ht)
    rw [Path.joinNames, List.foldl_cons, ← Path.joinNames, hrest,
      Path.steps_join_name p hs.slash_notMem hs.not_blank, List.append_assoc, List.singleton_append]

theorem start_joinNames (p : Path) (hnames : ∀ s ∈ names, Plain s) :
    (p.joinNames names).start cwd = p.start cwd := by
  induction names generalizing p with
  | nil => rfl
  | cons s names ih =>
    have hs := hnames s List.mem_cons_self
    have hrest := ih (p.join (.ofChars s)) fun t ht => hnames t (List.mem_cons_of_mem s ht)
    rw [Path.joinNames, List.foldl_cons, ← Path.joinNames, hrest, Path.start, Path.start,
      Path.isAbsolute_join_name p hs.slash_notMem]

theorem nul_notMem_steps {place : Place} (h : fs.locate cwd p = .ok place) :
    ∀ s ∈ p.steps, '\x00' ∉ s := by
  intro s hs hnul
  have hmem : '\x00' ∈ p.chars := (Path.mem_chars_iff (by decide) (by decide) p).mpr ⟨s, hs, hnul⟩
  simp [locate, hmem] at h

theorem locate_eq_foldlM (hfs : fs.LinkFree) (hnul : ∀ s ∈ p.steps, '\x00' ∉ s)
    (hne : p.chars ≠ []) : fs.locate cwd p = p.segments.foldlM fs.pass (p.start cwd) := by
  have hmem : '\x00' ∉ p.chars := by
    rw [Path.mem_chars_iff (by decide) (by decide)]
    exact fun ⟨s, hs, hc⟩ => hnul s hs hc
  rw [locate, follow_eq_foldlM hfs]
  simp [hmem, hne, Path.start]

/-- What shows that a path names a directory, all of it computable. -/
theorem entryAt_eq_dir (hfs : fs.LinkFree) (place : Place)
    (h : ((∀ s ∈ p.steps, '\x00' ∉ s) ∧ p.chars ≠ [] ∧ p.text.utf8ByteSize ≤ maxPath) ∧
      p.segments.foldlM fs.pass (p.start cwd) = .ok place ∧ fs.isDir place = true) :
    fs.entryAt cwd p = .ok .dir := by
  obtain ⟨⟨hnul, hne, hsize⟩, hwalk, hdir⟩ := h
  refine entryAt_eq_ok_iff.mpr ⟨hsize, place, ?_, by simpa [isDir] using hdir⟩
  rw [locate_eq_foldlM hfs hnul hne, hwalk]

/-- A path that leads to a place leads there by its steps, and that place is the one it spells. -/
theorem steps_of_locate (hfs : fs.LinkFree) (h : fs.locate cwd p = .ok place) :
    p.steps.foldlM fs.pass (p.start cwd) = .ok place ∧ place = p.denoted cwd := by
  have hne : p.chars ≠ [] := by
    intro he
    simp [locate, he] at h
  rw [locate_eq_foldlM hfs (nul_notMem_steps h) hne] at h
  have hsteps := foldlM_pass_solid h
  exact ⟨hsteps, foldl_enter_of_pass (fun s hs => Path.isBlank_of_mem_solid hs) hsteps⟩

theorem locate_joinNames (hfs : fs.LinkFree) (hnul : ∀ s ∈ p.steps, '\x00' ∉ s)
    (hne : names ≠ []) (hnames : ∀ s ∈ names, Plain s) :
    fs.locate cwd (p.joinNames names) = (p.steps ++ names).foldlM fs.pass (p.start cwd) := by
  have hsteps := steps_joinNames p hnames
  have hfree : ∀ s ∈ (p.joinNames names).steps, '\x00' ∉ s := by
    intro s hs
    rw [hsteps] at hs
    rcases List.mem_append.mp hs with hs | hs
    · exact hnul s hs
    · exact (hnames s hs).nul_notMem
  have hchars : (p.joinNames names).chars ≠ [] := by
    intro he
    have hnone : (p.joinNames names).steps = [] := by rw [Path.steps, Path.segments, he]; rfl
    rw [hnone] at hsteps
    exact hne (List.append_eq_nil_iff.mp hsteps.symm).2
  rw [locate_eq_foldlM hfs hfree hchars, start_joinNames p hnames]
  -- Blank segments of the root stand in front of a name, where they change nothing.
  obtain ⟨init, last, hlast⟩ := names.eq_nil_or_concat'.resolve_left hne
  subst hlast
  have hjoin : p.joinNames (init ++ [last]) = (p.joinNames init).join (.ofChars last) := by
    simp [Path.joinNames]
  obtain ⟨front, hfront, hsolid⟩ :=
    Path.segments_join_name (p.joinNames init) (hnames last (by simp)).slash_notMem
  rw [hjoin, hfront, foldlM_pass_front, hsolid,
    steps_joinNames p fun s hs => hnames s (List.mem_append_left _ hs), List.append_assoc]

end Locate

end FileSystem

end Prebuilt
