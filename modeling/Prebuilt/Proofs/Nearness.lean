import Mathlib.Data.List.Find
import Prebuilt.Installed
import Prebuilt.Proofs.LinkFree

/-! How near an installed package is found. The search goes up the spelling of a root and not up the
directories it stands for. Without links the two agree on an absolute root without double dots; a
relative root is followed no further than the directory it is relative to, and after double dots the
search passes through directories that are not above the root at all. -/

namespace Prebuilt

namespace PackageName

/-- The names that lead from a directory to the package installed in it. -/
def route (name : PackageName) : List Segment :=
  modulesDir.chars :: name.text.toList.splitOn '/'

def manifestRoute (name : PackageName) : List Segment := name.route ++ [manifestName.chars]

theorem route_ne_nil (name : PackageName) : name.route ≠ [] := List.cons_ne_nil _ _

theorem manifestRoute_ne_nil (name : PackageName) : name.manifestRoute ≠ [] :=
  List.append_ne_nil_of_left_ne_nil name.route_ne_nil _

variable {name : PackageName}

theorem below_eq_joinNames (name : PackageName) (dir : Path) :
    name.below (dir.join modulesDir) = dir.joinNames name.route := by
  rw [below, components, List.foldl_map]
  rfl

theorem manifest_eq_joinNames (name : PackageName) (dir : Path) :
    (name.below (dir.join modulesDir)).join manifestName = dir.joinNames name.manifestRoute := by
  rw [below_eq_joinNames, manifestRoute, Path.joinNames, Path.joinNames, List.foldl_concat]
  rfl

theorem utf8ByteSize_le_of_mem_components (h : Spelled name.text.toList) {c : String}
    (hc : c ∈ name.components) : c.utf8ByteSize ≤ name.text.utf8ByteSize := by
  rcases components_of_spelled h with ⟨-, hone⟩ | ⟨scope, part, -, -, htext, htwo⟩
  · rw [hone, List.mem_singleton] at hc
    rw [hc]
  · rw [htwo] at hc
    rw [htext]
    rcases List.mem_cons.mp hc with rfl | hc
    · simp only [String.utf8ByteSize_append]
      omega
    · obtain rfl := List.mem_singleton.mp hc
      simp only [String.utf8ByteSize_append]
      omega

theorem plain_of_mem_splitOn (h : isValid name.text = true) :
    ∀ s ∈ name.text.toList.splitOn '/', FileSystem.Plain s := by
  obtain ⟨hsize, hspelled⟩ := isValid_iff.mp h
  intro s hs
  refine ⟨hspelled.proper s hs, fun hnul => ?_, ?_⟩
  · have hmem : '\x00' ∈ name.text.toList :=
      (mem_iff_of_splitOn (by decide)).mpr ⟨s, hs, hnul⟩
    rcases hspelled.inner _ hmem with hinner | hat | hslash
    · exact absurd hinner (by decide)
    · exact absurd hat (by decide)
    · exact absurd hslash (by decide)
  · have hle := utf8ByteSize_le_of_mem_components hspelled (List.mem_map_of_mem hs)
    rw [FileSystem.nameBytes, FileSystem.maxName]
    omega

theorem plain_modulesDir : FileSystem.Plain modulesDir.chars := by
  refine ⟨⟨?_, ?_, ?_, ?_⟩, ?_, ?_⟩ <;> decide +kernel

theorem plain_manifestName : FileSystem.Plain manifestName.chars := by
  refine ⟨⟨?_, ?_, ?_, ?_⟩, ?_, ?_⟩ <;> decide +kernel

theorem plain_of_mem_manifestRoute (h : isValid name.text = true) :
    ∀ s ∈ name.manifestRoute, FileSystem.Plain s := by
  intro s hs
  rw [manifestRoute, route, List.mem_append, List.mem_cons, List.mem_singleton] at hs
  rcases hs with (rfl | hs) | rfl
  · exact plain_modulesDir
  · exact plain_of_mem_splitOn h s hs
  · exact plain_manifestName

theorem plain_of_mem_route (h : isValid name.text = true) :
    ∀ s ∈ name.route, FileSystem.Plain s :=
  fun s hs => plain_of_mem_manifestRoute h s (List.mem_append_left _ hs)

end PackageName

namespace FileSystem

section Search

variable {fs : FileSystem} {cwd place : Place} {name : PackageName} {root : Path}

theorem denoted_of_mem_ancestors (hne : root.chars ≠ []) {q : Path} (hq : q ∈ root.ancestors) :
    q.denoted cwd = q.steps.foldl enter (root.start cwd) := by
  rw [Path.denoted, Path.start, Path.isAbsolute_of_mem_ancestors hne hq, Path.start]

theorem chars_ne_nil_of_locate (h : fs.locate cwd root = .ok place) : root.chars ≠ [] := by
  intro he
  simp [locate, he] at h

variable (hfs : fs.LinkFree) (hroot : fs.locate cwd root = .ok place)

include hfs hroot

/-- Every path above one that leads somewhere leads where it is spelled. -/
theorem foldlM_pass_of_mem_ancestors {q : Path} (hq : q ∈ root.ancestors) :
    q.steps.foldlM fs.pass (q.start cwd) = .ok (q.denoted cwd) := by
  obtain ⟨more, hmore⟩ := Path.steps_prefix_of_mem_ancestors hq
  have hwalk := (steps_of_locate hfs hroot).1
  rw [← hmore] at hwalk
  obtain ⟨next, hnext, -⟩ := foldlM_pass_append hwalk
  have hsolid : ∀ s ∈ q.steps, Path.isBlank s = false := fun s hs => Path.isBlank_of_mem_solid hs
  have hstart : q.start cwd = root.start cwd := by
    rw [Path.start, Path.isAbsolute_of_mem_ancestors (chars_ne_nil_of_locate hroot) hq, Path.start]
  rw [Path.denoted, hstart, ← foldl_enter_of_pass hsolid hnext]
  exact hnext

theorem locate_joinNames_of_mem_ancestors {q : Path} (hq : q ∈ root.ancestors)
    {names : List Segment} (hne : names ≠ []) (hnames : ∀ s ∈ names, Plain s) :
    fs.locate cwd (q.joinNames names) = names.foldlM fs.pass (q.denoted cwd) := by
  have hnul : ∀ s ∈ q.steps, '\x00' ∉ s := fun s hs =>
    nul_notMem_steps hroot s ((Path.steps_prefix_of_mem_ancestors hq).mem hs)
  rw [locate_joinNames hfs hnul hne hnames, List.foldlM_append,
    foldlM_pass_of_mem_ancestors hfs hroot hq]
  rfl

/-- A package is found below a directory on the way up exactly if its manifest is there. -/
theorem hasManifest_iff (hname : PackageName.isValid name.text = true) {q : Path}
    (hq : q ∈ root.ancestors)
    (hfit : ((name.below (q.join modulesDir)).join manifestName).text.utf8ByteSize ≤ maxPath) :
    (fs.disk cwd).hasManifest (name.below (q.join modulesDir)) = true ↔
      fs.holdsFile (q.denoted cwd) name.manifestRoute = true := by
  have hplain := PackageName.plain_of_mem_manifestRoute hname
  rw [Disk.hasManifest, isFile_disk_iff, and_iff_right hfit, PackageName.manifest_eq_joinNames,
    locate_joinNames_of_mem_ancestors hfs hroot hq name.manifestRoute_ne_nil hplain,
    holdsFile_iff hplain]

theorem locate_of_holdsFile (hname : PackageName.isValid name.text = true) {q : Path}
    (hq : q ∈ root.ancestors) (h : fs.holdsFile (q.denoted cwd) name.manifestRoute = true) :
    fs.locate cwd (q.joinNames name.route) = .ok (q.denoted cwd ++ name.route) := by
  have hplain := PackageName.plain_of_mem_route hname
  obtain ⟨goal, e, hwalk, -, -⟩ :=
    (holdsFile_iff (PackageName.plain_of_mem_manifestRoute hname)).mp h
  obtain ⟨next, hnext, -⟩ := foldlM_pass_append hwalk
  have hup : ['.', '.'] ∉ name.route := fun hmem => (hplain _ hmem).ne_up rfl
  have hgoal := foldl_enter_of_pass (fun s hs => (hplain s hs).not_blank) hnext
  rw [foldl_enter_of_no_up hup] at hgoal
  rw [locate_joinNames_of_mem_ancestors hfs hroot hq name.route_ne_nil hplain, hnext, hgoal]

variable (hname : PackageName.isValid name.text = true)
  (hfit : ∀ dir ∈ name.places [root], (dir.join manifestName).text.utf8ByteSize ≤ maxPath)

include hname hfit

theorem findPackage_eq : ((fs.disk cwd).findPackage name [root]).1 =
    (root.ancestors.find? fun q => fs.holdsFile (q.denoted cwd) name.manifestRoute).map
      fun q => q.joinNames name.route := by
  have hsame : root.ancestors.find? (fun q => (fs.disk cwd).hasManifest (q.joinNames name.route)) =
      root.ancestors.find? fun q => fs.holdsFile (q.denoted cwd) name.manifestRoute := by
    refine List.find?_congr fun q hq => ?_
    have hplace : name.below (q.join modulesDir) ∈ name.places [root] := by
      rw [PackageName.places_singleton]
      exact List.mem_map_of_mem hq
    rw [← PackageName.below_eq_joinNames, Bool.eq_iff_iff]
    exact hasManifest_iff hfs hroot hname hq (hfit _ hplace)
  have hplaces : name.places [root] = root.ancestors.map fun q => q.joinNames name.route := by
    simp only [PackageName.places_singleton, PackageName.below_eq_joinNames]
  rw [Disk.findPackage, Disk.firstInstalled_fst, hplaces, List.find?_map, Function.comp_def, hsame]

/-- The directories looked into are those that the beginnings of the root's steps lead to, the
longest first. -/
theorem locate_findPackage :
    (((fs.disk cwd).findPackage name [root]).1).map (fs.locate cwd) =
      (root.steps.inits.reverse.find? fun l =>
        fs.holdsFile (l.foldl enter (root.start cwd)) name.manifestRoute).map
          fun l => .ok (l.foldl enter (root.start cwd) ++ name.route) := by
  have hne := chars_ne_nil_of_locate hroot
  have hsame : (root.ancestors.find? fun q => fs.holdsFile (q.denoted cwd) name.manifestRoute) =
      root.ancestors.find? fun q =>
        fs.holdsFile (q.steps.foldl enter (root.start cwd)) name.manifestRoute :=
    List.find?_congr fun q hq => by rw [denoted_of_mem_ancestors hne hq]
  rw [findPackage_eq hfs hroot hname hfit, hsame, ← Path.find_ancestors, Option.map_map,
    Option.map_map]
  cases hfind : root.ancestors.find? fun q =>
    fs.holdsFile (q.steps.foldl enter (root.start cwd)) name.manifestRoute with
  | none => rfl
  | some q =>
    have hq := List.mem_of_find?_eq_some hfind
    have hholds := List.find?_some hfind
    rw [← denoted_of_mem_ancestors hne hq] at hholds
    have hlocate := locate_of_holdsFile hfs hroot hname hq hholds
    rw [denoted_of_mem_ancestors hne hq] at hlocate
    exact congrArg some hlocate

theorem isSome_findPackage_iff : (((fs.disk cwd).findPackage name [root]).1).isSome ↔
    ∃ l, l <+: root.steps ∧
      fs.holdsFile (l.foldl enter (root.start cwd)) name.manifestRoute = true := by
  have hlocate := locate_findPackage hfs hroot hname hfit
  rw [← Option.isSome_map (f := fs.locate cwd), hlocate, Option.isSome_map, List.find?_isSome]
  simp [List.mem_inits]

end Search

/-- Steps from the filesystem root pass through every directory above the one they end in. -/
theorem exists_init_of_prefix (steps : List Segment) (place : Place)
    (h : place <+: steps.foldl enter []) : ∃ l, l <+: steps ∧ l.foldl enter [] = place := by
  induction steps using List.reverseRecOn generalizing place with
  | nil => exact ⟨[], List.nil_prefix, (List.prefix_nil.mp h).symm⟩
  | append_singleton steps s ih =>
    have hstep : (steps ++ [s]).foldl enter [] = enter (steps.foldl enter []) s := by
      rw [List.foldl_concat]
    rw [hstep] at h
    have hpassed (hp : place <+: steps.foldl enter []) :
        ∃ l, l <+: steps ++ [s] ∧ l.foldl enter [] = place := by
      obtain ⟨l, hl, he⟩ := ih place hp
      exact ⟨l, hl.trans (List.prefix_append steps [s]), he⟩
    -- Double dots only go back up, and what is above the place they lead to was passed before.
    by_cases hup : s = ['.', '.']
    · rw [enter, if_pos hup] at h
      exact hpassed (h.trans (List.dropLast_prefix _))
    · rw [enter, if_neg hup] at h
      rcases List.prefix_concat_iff.mp h with rfl | hp
      · exact ⟨steps ++ [s], List.prefix_rfl, by rw [hstep, enter, if_neg hup]⟩
      · exact hpassed hp

section Straight

variable {fs : FileSystem} {cwd place : Place} {name : PackageName} {root : Path}
  (hup : ['.', '.'] ∉ root.segments)

include hup

theorem foldl_enter_of_init {l : List Segment} (hl : l <+: root.steps) :
    l.foldl enter (root.start cwd) = root.start cwd ++ l :=
  foldl_enter_of_no_up (fun hmem => hup (List.mem_filter.mp (hl.mem hmem)).1) _

theorem denoted_of_no_up : root.denoted cwd = root.start cwd ++ root.steps :=
  foldl_enter_of_init hup List.prefix_rfl

theorem prefix_denoted_iff {d : Place} : root.start cwd <+: d ∧ d <+: root.denoted cwd ↔
    ∃ l, l <+: root.steps ∧ root.start cwd ++ l = d := by
  rw [denoted_of_no_up hup]
  constructor
  · rintro ⟨⟨l, rfl⟩, hd⟩
    exact ⟨l, (List.prefix_append_right_inj _).mp hd, rfl⟩
  · rintro ⟨l, hl, rfl⟩
    exact ⟨List.prefix_append _ l, (List.prefix_append_right_inj _).mpr hl⟩

/-- What is found lies below the longest beginning of the root that holds the package. -/
theorem longest_of_findPackage (hfs : fs.LinkFree) (hroot : fs.locate cwd root = .ok place)
    (hname : PackageName.isValid name.text = true)
    (hfit : ∀ dir ∈ name.places [root], (dir.join manifestName).text.utf8ByteSize ≤ maxPath)
    {dir : Path} (hdir : ((fs.disk cwd).findPackage name [root]).1 = some dir) :
    ∃ l, l <+: root.steps ∧ fs.holdsFile (root.start cwd ++ l) name.manifestRoute = true ∧
      fs.locate cwd dir = .ok (root.start cwd ++ l ++ name.route) ∧
      ∀ longer, longer <+: root.steps → l.length < longer.length →
        fs.holdsFile (root.start cwd ++ longer) name.manifestRoute = false := by
  have hfound := locate_findPackage hfs hroot hname hfit
  rw [hdir, Option.map_some, eq_comm, Option.map_eq_some_iff] at hfound
  obtain ⟨l, hfind, hwhere⟩ := hfound
  obtain ⟨hl, hinside, hlongest⟩ := Path.longest_of_find_inits hfind
  rw [foldl_enter_of_init hup hl] at hinside hwhere
  refine ⟨l, hl, hinside, hwhere.symm, fun longer hlonger hlt => ?_⟩
  rw [← foldl_enter_of_init hup hlonger]
  exact hlongest longer hlonger hlt

end Straight

/-- From a root whose spelling has no double dots the search takes the nearest directory on the
way up that holds the package: up to the filesystem root if the spelling is absolute, and up to the
directory it is relative to if it is not. From an absolute root it finds a package that is
installed above the root in any case. -/
theorem finds_nearest_up_to_start (fs : FileSystem) (cwd : Place) (name : PackageName) (root : Path)
    (hfs : fs.LinkFree) (hname : PackageName.isValid name.text = true)
    (hroot : fs.entryAt cwd root = .ok .dir)
    (hfit : ∀ dir ∈ name.places [root], (dir.join manifestName).text.utf8ByteSize ≤ maxPath) :
    let found := ((fs.disk cwd).findPackage name [root]).1
    let place := root.denoted cwd
    let start := if root.isAbsolute then [] else cwd
    let inside := fun d : Place => fs.holdsFile d name.manifestRoute = true
    fs.locate cwd root = .ok place ∧
    (root.isAbsolute = true → (∃ d, d <+: place ∧ inside d) → found.isSome) ∧
    (['.', '.'] ∉ root.segments →
      (found.isSome ↔ ∃ d, start <+: d ∧ d <+: place ∧ inside d) ∧
      ∀ dir, found = some dir → ∃ d, start <+: d ∧ d <+: place ∧ inside d ∧
        fs.locate cwd dir = .ok (d ++ name.route) ∧
        ∀ nearer, nearer <+: place → d.length < nearer.length → ¬ inside nearer) := by
  intro found place start inside
  obtain ⟨-, there, hlocate, -⟩ := entryAt_eq_ok_iff.mp hroot
  have hsome : found.isSome ↔ ∃ l, l <+: root.steps ∧ inside (l.foldl enter start) :=
    isSome_findPackage_iff hfs hlocate hname hfit
  refine ⟨?_, fun habs => ?_, fun hup => ⟨?_, fun dir hdir => ?_⟩⟩
  · rw [hlocate, (steps_of_locate hfs hlocate).2]
  · rintro ⟨d, hd, hinside⟩
    have hstart : start = [] := if_pos habs
    have hplace : d <+: root.steps.foldl enter [] := hstart ▸ hd
    obtain ⟨l, hl, rfl⟩ := exists_init_of_prefix root.steps d hplace
    exact hsome.mpr ⟨l, hl, hstart ▸ hinside⟩
  · rw [hsome]
    constructor
    · rintro ⟨l, hl, hinside⟩
      obtain ⟨hd, hplace⟩ := (prefix_denoted_iff hup).mpr ⟨l, hl, rfl⟩
      exact ⟨start ++ l, hd, hplace, foldl_enter_of_init hup hl ▸ hinside⟩
    · rintro ⟨d, hd, hplace, hinside⟩
      obtain ⟨l, hl, rfl⟩ := (prefix_denoted_iff hup).mp ⟨hd, hplace⟩
      exact ⟨l, hl, (foldl_enter_of_init hup hl).symm ▸ hinside⟩
  · obtain ⟨l, hl, hinside, hwhere, hlongest⟩ :=
      longest_of_findPackage hup hfs hlocate hname hfit hdir
    obtain ⟨hd, hplace⟩ := (prefix_denoted_iff hup).mpr ⟨l, hl, rfl⟩
    refine ⟨start ++ l, hd, hplace, hinside, hwhere, fun nearer hnearer hlt hin => ?_⟩
    -- a nearer directory is longer than one below the start, so it is below the start itself
    have hstart : start <+: nearer :=
      List.prefix_of_prefix_length_le (hd.trans hplace) hnearer (hd.length_le.trans hlt.le)
    obtain ⟨longer, hlonger, rfl⟩ := (prefix_denoted_iff hup).mp ⟨hstart, hnearer⟩
    have hnot := hlongest longer hlonger (by simpa [start, Path.start] using hlt)
    exact absurd hin (Bool.eq_false_iff.mp hnot)

def placeOf (names : List String) : Place := names.map String.toList

/-- Two directories side by side. A package is installed for one of them alone. -/
def workshop : FileSystem :=
  ⟨[(placeOf ["work"], .dir), (placeOf ["work", "lib"], .dir), (placeOf ["work", "app"], .dir),
    (placeOf ["work", "app", "src"], .dir), (placeOf ["work", "app", "node_modules"], .dir),
    (placeOf ["work", "app", "node_modules", "scanner"], .dir),
    (placeOf ["work", "app", "node_modules", "scanner", "package.json"], .bytes [])]⟩

theorem workshop_linkFree : workshop.LinkFree := by
  apply linkFree_of_table
  intro row hrow target
  simp only [workshop, List.mem_cons, List.not_mem_nil, or_false] at hrow
  rcases hrow with rfl | rfl | rfl | rfl | rfl | rfl | rfl <;> simp

/-- From below `app` the package of `app` is the nearest one. -/
theorem finds_scanner_of_app :
    let name : PackageName := ⟨"scanner"⟩
    let root : Path := ⟨"/work/app/src"⟩
    let found := ((workshop.disk []).findPackage name [root]).1
    workshop.LinkFree ∧ PackageName.isValid name.text = true ∧
      workshop.entryAt [] root = .ok .dir ∧
      (∀ dir ∈ name.places [root], (dir.join manifestName).text.utf8ByteSize ≤ maxPath) ∧
      found.isSome ∧
      ∀ dir, found = some dir →
        workshop.locate [] dir = .ok (placeOf ["work", "app", "node_modules", "scanner"]) := by
  intro name root found
  have hname : PackageName.isValid name.text = true := by decide +kernel
  have hroot : workshop.entryAt [] root = .ok .dir :=
    entryAt_eq_dir workshop_linkFree (placeOf ["work", "app", "src"]) (by decide +kernel)
  have hfit : ∀ dir ∈ name.places [root], (dir.join manifestName).text.utf8ByteSize ≤ maxPath := by
    decide +kernel
  obtain ⟨-, habove, hstraight⟩ :=
    finds_nearest_up_to_start workshop [] name root workshop_linkFree hname hroot hfit
  have hinside : workshop.holdsFile (placeOf ["work", "app"]) name.manifestRoute = true := by
    decide +kernel
  have honly : ∀ d ∈ (root.denoted []).inits, workshop.holdsFile d name.manifestRoute = true →
      d = placeOf ["work", "app"] := by
    decide +kernel
  refine ⟨workshop_linkFree, hname, hroot, hfit, habove (by decide +kernel) ⟨_, ?_, hinside⟩,
    fun dir hdir => ?_⟩
  · decide +kernel
  · obtain ⟨d, -, hd, hin, hwhere, -⟩ := (hstraight (by decide +kernel)).2 dir hdir
    obtain rfl := honly d ((List.mem_inits d _).mpr hd) hin
    have hbelow : placeOf ["work", "app", "node_modules", "scanner"] =
        placeOf ["work", "app"] ++ name.route := by decide +kernel
    rw [hbelow]
    exact hwhere

/-- Going up its spelling a search leaves the directories above the root and does not reach all of
them: from `app/../lib` it comes to the package of `app`, and from `.` it misses the one that is
installed above the directory it stands in. -/
theorem spelling_leads_astray :
    let name : PackageName := ⟨"scanner"⟩
    let search := fun (cwd : Place) (root : Path) => ((workshop.disk cwd).findPackage name [root]).1
    let inside := fun d : Place => workshop.holdsFile d name.manifestRoute = true
    let work : Place := placeOf ["work"]
    let src : Place := placeOf ["work", "app", "src"]
    workshop.LinkFree ∧ PackageName.isValid name.text = true ∧
    (workshop.entryAt work ⟨"app/../lib"⟩ = .ok .dir ∧
      (∀ d, d <+: Path.denoted work ⟨"app/../lib"⟩ → ¬ inside d) ∧
      search work ⟨"app/../lib"⟩ = some ⟨"app/node_modules/scanner"⟩ ∧
      search work ⟨"/work/lib"⟩ = none) ∧
    workshop.entryAt src ⟨"."⟩ = .ok .dir ∧
      (∃ d, d <+: Path.denoted src ⟨"."⟩ ∧ inside d) ∧
      search src ⟨"."⟩ = none ∧
      search src ⟨"/work/app/src"⟩ = some ⟨"/work/app/node_modules/scanner"⟩ := by
  intro name search inside work src
  -- Following a path does not compute by `decide`; looking through the places above it does.
  have hname : PackageName.isValid name.text = true := by decide +kernel
  have hsearch (cwd : Place) (root : Path) (hroot : workshop.entryAt cwd root = .ok .dir)
      (hfit : ∀ dir ∈ name.places [root], (dir.join manifestName).text.utf8ByteSize ≤ maxPath) :
      search cwd root = (root.ancestors.find? fun q =>
        workshop.holdsFile (q.denoted cwd) name.manifestRoute).map
          fun q => q.joinNames name.route := by
    obtain ⟨-, place, hlocate, -⟩ := entryAt_eq_ok_iff.mp hroot
    exact findPackage_eq workshop_linkFree hlocate hname hfit
  have haside : workshop.entryAt work ⟨"app/../lib"⟩ = .ok .dir :=
    entryAt_eq_dir workshop_linkFree (placeOf ["work", "lib"]) (by decide +kernel)
  have hlib : workshop.entryAt work ⟨"/work/lib"⟩ = .ok .dir :=
    entryAt_eq_dir workshop_linkFree (placeOf ["work", "lib"]) (by decide +kernel)
  have hhere : workshop.entryAt src ⟨"."⟩ = .ok .dir :=
    entryAt_eq_dir workshop_linkFree src (by decide +kernel)
  have hsrc : workshop.entryAt src ⟨"/work/app/src"⟩ = .ok .dir :=
    entryAt_eq_dir workshop_linkFree src (by decide +kernel)
  have hnone : ∀ d ∈ (Path.denoted work ⟨"app/../lib"⟩).inits, ¬ inside d := by decide +kernel
  refine ⟨workshop_linkFree, hname, ⟨haside, fun d hd => hnone d ((List.mem_inits d _).mpr hd),
    ?_, ?_⟩, hhere, ⟨placeOf ["work", "app"], ?_, ?_⟩, ?_, ?_⟩
  · rw [hsearch work _ haside (by decide +kernel)]
    decide +kernel
  · rw [hsearch work _ hlib (by decide +kernel)]
    decide +kernel
  · decide +kernel
  · show workshop.holdsFile _ name.manifestRoute = true
    decide +kernel
  · rw [hsearch src _ hhere (by decide +kernel)]
    decide +kernel
  · rw [hsearch src _ hsrc (by decide +kernel)]
    decide +kernel

end FileSystem

end Prebuilt
