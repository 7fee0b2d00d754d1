import Prebuilt.Catalog.BuiltIn
import Prebuilt.Proofs.Above
import Prebuilt.Proofs.Candidates
import Prebuilt.Proofs.Flattening
import Prebuilt.Proofs.Naming

/-! Names of packages for one target. They are built and not read from text, so that it depends on
the short id whether they are names of the grammar. The directories they lead to are sound for every
short id without a slash. -/

namespace Prebuilt.PackageName

section Grammar

variable {part cs more : List Char} {name : PackageName}

theorem part_append_iff (h : Part part) : Part (part ++ '-' :: more) ↔ ∀ c ∈ more, Inner c := by
  constructor
  · intro hboth c hc
    exact hboth.inner (by simp [hc])
  · intro hmore
    obtain ⟨c, cs, rfl, hc⟩ := h.exists_leading
    refine ⟨hc, fun d hd => ?_⟩
    rcases List.mem_append.mp hd with hd | hd
    · exact h.inner (List.mem_cons_of_mem c hd)
    · rcases List.mem_cons.mp hd with rfl | hd
      · decide
      · exact hmore d hd

theorem not_part_scoped : ¬ Part ('@' :: cs) :=
  fun h => absurd h.1 (by decide)

theorem scoped_append_iff {scope : List Char} (hs : Part scope) (hp : Part part) :
    Spelled ('@' :: scope ++ '/' :: (part ++ '-' :: more)) ↔ ∀ c ∈ more, Inner c := by
  constructor
  · intro h
    rcases spelled_iff.mp h with hpart | ⟨scope', part', hs', hp', he⟩
    · exact absurd hpart not_part_scoped
    · -- the first slash ends the scope on both sides
      have he' : scope ++ '/' :: (part ++ '-' :: more) = scope' ++ '/' :: part' :=
        (List.cons.inj he).2
      have hrest := congrArg (List.dropWhile (· ≠ '/')) he'
      rw [(cut_scoped hs).2, (cut_scoped hs').2] at hrest
      rw [← (List.cons.inj hrest).2] at hp'
      exact (part_append_iff hp).mp hp'
  · intro hmore
    exact .scoped (isPart_iff.mpr hs) (isPart_iff.mpr ((part_append_iff hp).mpr hmore))

/-- A name with a dash behind it goes on with inner characters and nothing else. -/
theorem spelled_append_iff (h : Spelled cs) :
    Spelled (cs ++ '-' :: more) ↔ ∀ c ∈ more, Inner c := by
  rcases spelled_iff.mp h with hpart | ⟨scope, part, hs, hp, rfl⟩
  · rw [← part_append_iff hpart]
    constructor
    · intro hboth
      rcases spelled_iff.mp hboth with hboth | ⟨scope, part, -, -, he⟩
      · exact hboth
      · obtain ⟨c, rest, rfl, hc⟩ := hpart.exists_leading
        have hat : c = '@' := (List.cons.inj he).1
        exact absurd (hat ▸ hc) (by decide)
    · intro hboth
      exact .plain (isPart_iff.mpr hboth)
  · rw [List.append_assoc, List.cons_append]
    exact scoped_append_iff hs hp

theorem toList_forTarget (name : PackageName) (s : String) :
    (name.forTarget s).text.toList = name.text.toList ++ '-' :: s.toList := by
  simp [forTarget]

theorem isValid_forTarget_iff (h : Spelled name.text.toList) (s : String) :
    isValid (name.forTarget s).text = true ↔
      (∀ c ∈ s.toList, Inner c) ∧ name.text.utf8ByteSize + 1 + s.utf8ByteSize ≤ 214 := by
  have hsize : (name.forTarget s).text.utf8ByteSize =
      name.text.utf8ByteSize + 1 + s.utf8ByteSize := by
    have hdash : "-".utf8ByteSize = 1 := rfl
    simp [forTarget, hdash]
  rw [isValid_iff, toList_forTarget, spelled_append_iff h, hsize, and_comm]

end Grammar

section Directories

variable {name : PackageName} {s : String}

/-- A dash and more behind a proper piece leave it one. -/
theorem Proper.append {piece more : List Char} (h : Proper piece) (hmore : '/' ∉ more) :
    Proper (piece ++ '-' :: more) := by
  refine ⟨by simp, fun he => ?_, fun he => ?_, by simp [h.slash_notMem, hmore]⟩
  · have hlen := congrArg List.length he
    cases piece with
    | nil => exact h.ne_nil rfl
    | cons c piece => simp at hlen
  · have hmem : '-' ∈ ['.', '.'] := he ▸ by simp
    simp at hmem

/-- A short id goes to the last piece of a name. -/
theorem splitOn_forTarget {front : List (List Char)} {last : List Char}
    (hcut : name.text.toList.splitOn '/' = front ++ [last]) (hs : '/' ∉ s.toList) :
    (name.forTarget s).text.toList.splitOn '/' = front ++ [last ++ '-' :: s.toList] := by
  have hmore : '/' ∉ '-' :: s.toList := by simp [hs]
  rw [toList_forTarget, splitOn_append hcut (List.splitOn_eq_singleton hmore)]

theorem proper_forTarget (h : Spelled name.text.toList) (hs : '/' ∉ s.toList) :
    ∀ piece ∈ (name.forTarget s).text.toList.splitOn '/', Proper piece := by
  obtain ⟨front, last, hcut⟩ := exists_last_piece '/' name.text.toList
  have hpieces := h.proper
  rw [hcut] at hpieces
  rw [splitOn_forTarget hcut hs, List.forall_mem_append, List.forall_mem_singleton]
  exact ⟨fun piece hp => hpieces piece (by simp [hp]), (hpieces last (by simp)).append hs⟩

/-- One directory, or two of which the first is the scope. -/
theorem exists_cut {cs : List Char} (h : Spelled cs) : ∃ front last,
    cs.splitOn '/' = front ++ [last] ∧ (front = [] ∨ ∃ scope, front = ['@' :: scope]) := by
  rcases spelled_iff.mp h with hpart | ⟨scope, part, hs, hp, rfl⟩
  · exact ⟨[], cs, splitOn_part hpart, .inl rfl⟩
  · exact ⟨['@' :: scope], part, splitOn_scoped hs hp, .inr ⟨scope, rfl⟩⟩

theorem components_of_cut {front : List (List Char)} {last : List Char}
    (hcut : name.text.toList.splitOn '/' = front ++ [last]) :
    name.components = front.map String.ofList ++ [String.ofList last] := by
  rw [components, hcut, List.map_append]
  rfl

/-- The directory of a name stands right below those that lead to it. -/
theorem parent_below {front : List (List Char)} {last : List Char}
    (hcut : name.text.toList.splitOn '/' = front ++ [last])
    (hproper : ∀ piece ∈ front ++ [last], Proper piece) (dir : Path) :
    let modules := dir.join modulesDir
    ∃ parent, (name.below modules).parent? = some parent ∧
      parent.same ((front.map String.ofList).foldl (fun place c => place.join ⟨c⟩) modules) = true ∧
      (name.below modules).fileName? = some last := by
  intro modules
  have hfront : ∀ piece ∈ front, Proper piece := fun piece hp => hproper piece (by simp [hp])
  have hlast : Proper last := hproper last (by simp)
  have hsegment : '/' ∉ "node_modules".toList ∧ Path.isBlank "node_modules".toList = false := by
    decide
  have hmodules : modules.components = dir.components ++ [.name "node_modules".toList] :=
    Path.components_join_name dir hsegment.1 hsegment.2
  have hbelow : (name.below modules).components =
      (modules.components ++ front.map Path.componentOf) ++ [Path.componentOf last] := by
    rw [components_below (hcut.symm ▸ hproper), hcut, List.map_append, ← List.append_assoc]
    rfl
  have hne : modules.components ++ front.map Path.componentOf ≠ [] := by simp [hmodules]
  obtain ⟨parent, hparent, hcomponents⟩ := Path.exists_parent hbelow fun _ => hne
  refine ⟨parent, hparent, ?_, ?_⟩
  · have hfold := Path.components_join_names (fun piece hp => (hfront piece hp).slash_notMem)
      (fun piece hp => (hfront piece hp).not_blank) modules
    rw [Path.same, beq_iff_eq, hcomponents, List.foldl_map]
    exact hfold.symm
  · rw [Path.fileName?, hbelow, hlast.componentOf, List.getLast?_concat]

end Directories

theorem slash_notMem_builtIn : ∀ t ∈ Catalog.builtIn.targets, '/' ∉ t.shortId.toList := by
  have hrows : ∀ r ∈ builtInTriples, '/' ∉ r.platform.toList ∧ '/' ∉ r.arch.toList ∧
      ∀ abi ∈ r.abi, '/' ∉ abi.toList := by
    decide +kernel
  intro t ht
  rw [Catalog.builtIn, ofTriples_eq_grouped] at ht
  obtain ⟨⟨r, hr, hk⟩, -⟩ := mem_targets_iff.mp ht
  have hfree : r.key.SlashFree := ⟨(hrows r hr).1, (hrows r hr).2.1, (hrows r hr).2.2⟩
  rw [Target.shortId, ← hk]
  exact hfree.shortId

/-- With a short id behind it a name stays a name exactly if all the characters of the id may stand
inside a name and the limit is kept. If the id holds no slash, its directory is a proper one right
below the modules directory or the scope, however long it is. Different ids give different names. -/
theorem target_name_is_name_iff {t : String} {name : PackageName} (hname : parse t = .ok name)
    (s : String) :
    ((∃ built, parse (name.forTarget s).text = .ok built) ↔
      (∀ c ∈ s.toList, Inner c) ∧ name.text.utf8ByteSize + 1 + s.utf8ByteSize ≤ 214) ∧
    ('/' ∉ s.toList → ∃ front last, name.components = front ++ [last] ∧
      (front = [] ∨ ∃ scope, front = ["@" ++ scope]) ∧
      (name.forTarget s).components = front ++ [last ++ "-" ++ s] ∧
      (∀ c ∈ (name.forTarget s).components, c ≠ "" ∧ c ≠ "." ∧ c ≠ ".." ∧ '/' ∉ c.toList) ∧
      ∀ dir : Path,
        let modules := dir.join ⟨"node_modules"⟩
        let place := (name.forTarget s).below modules
        ∃ parent, place.parent? = some parent ∧
          parent.same (front.foldl (fun at' c => at'.join ⟨c⟩) modules) = true ∧
          place.fileName? = some (last ++ "-" ++ s).toList) ∧
    (∀ s', name.forTarget s = name.forTarget s' → s = s') ∧
    ∀ u ∈ Catalog.builtIn.targets, '/' ∉ u.shortId.toList := by
  have hspelled : Spelled name.text.toList := by
    obtain ⟨⟨-, hspelled⟩, rfl⟩ := parse_eq_ok_iff.mp hname
    exact hspelled
  refine ⟨?valid, fun hs => ?directory, fun s' he => forTarget_injective _ he,
    slash_notMem_builtIn⟩
  case valid =>
    rw [← isValid_forTarget_iff hspelled, isValid_iff]
    constructor
    · rintro ⟨built, h⟩
      exact (parse_eq_ok_iff.mp h).1
    · intro h
      exact ⟨_, parse_eq_ok_iff.mpr ⟨h, rfl⟩⟩
  case directory =>
    obtain ⟨front, last, hcut, hfront⟩ := exists_cut hspelled
    have hbuilt := splitOn_forTarget hcut hs
    have hproper := proper_forTarget hspelled hs
    have hlast : String.ofList last ++ "-" ++ s = String.ofList (last ++ '-' :: s.toList) := by
      apply String.toList_inj.mp
      simp
    refine ⟨front.map String.ofList, String.ofList last, components_of_cut hcut, ?_, ?_,
      fun c hc => proper_of_mem_components hproper hc, fun dir => ?_⟩
    · rcases hfront with rfl | ⟨scope, rfl⟩
      · exact .inl rfl
      · refine .inr ⟨String.ofList scope, ?_⟩
        simp [String.ofList_cons]
    · rw [hlast]
      exact components_of_cut hbuilt
    · rw [hlast, String.toList_ofList]
      exact parent_below hbuilt (hbuilt ▸ hproper) dir

/-- The build of a scoped package for one target is a package of the same scope. -/
theorem canvas_build_stays_in_scope :
    let name : PackageName := ⟨"@napi-rs/canvas"⟩
    let built := name.forTarget "linux-x64-gnu"
    parse "@napi-rs/canvas" = .ok name ∧ '/' ∉ "linux-x64-gnu".toList ∧
    (∃ read, parse built.text = .ok read) ∧
    built.components = ["@napi-rs", "canvas-linux-x64-gnu"] ∧
    ∀ dir : Path, ∃ parent, (built.below (dir.join ⟨"node_modules"⟩)).parent? = some parent ∧
      parent.same ((dir.join ⟨"node_modules"⟩).join ⟨"@napi-rs"⟩) = true := by
  intro name built
  have hparse : parse "@napi-rs/canvas" = .ok name := by decide +kernel
  have hslash : '/' ∉ "linux-x64-gnu".toList := by decide +kernel
  obtain ⟨hvalid, hplace, -, -⟩ := target_name_is_name_iff hparse "linux-x64-gnu"
  obtain ⟨front, last, hname, -, hbuilt, -, hdir⟩ := hplace hslash
  have hcut : name.components = ["@napi-rs"] ++ ["canvas"] := by decide +kernel
  rw [hname] at hcut
  obtain ⟨rfl, hlast⟩ := List.append_inj' hcut rfl
  obtain rfl := (List.cons.inj hlast).1
  -- decided by the test itself: a quantifier over characters would be decided over all of them
  have htest : "linux-x64-gnu".toList.all isInner = true := by decide +kernel
  have hinner : ∀ c ∈ "linux-x64-gnu".toList, Inner c :=
    fun c hc => isInner_iff.mp (List.all_eq_true.mp htest c hc)
  refine ⟨hparse, hslash, hvalid.mpr ⟨hinner, by decide +kernel⟩, hbuilt, fun dir => ?_⟩
  obtain ⟨parent, hparent, hsame, -⟩ := hdir dir
  exact ⟨parent, hparent, hsame⟩

end Prebuilt.PackageName
