import Prebuilt.Proofs.DistinctPlaces

/-! Where the files among the candidates of a search are. Joining never takes away from the left side
unless the right one is absolute, so an artifact is in the directory or below it; with a plain stem
and a plain ending it is right in the directory, under the very name that was put together. -/

namespace Prebuilt

namespace Path

variable {name : Segment}

/-- What is joined on the right leaves the components of the left side in front. -/
theorem startsWith_join (p : Path) {q : Path} (hq : q.isAbsolute = false) :
    (p.join q).startsWith p = true := by
  rw [startsWith, List.isPrefixOf_iff_prefix]
  by_cases hp : p.chars = []
  · have hnone : p.components = [] := by
      rw [components, segments, isAbsolute, hp]
      rfl
    rw [hnone]
    exact List.nil_prefix
  · rw [components_join hp hq]
    exact List.prefix_append _ _

theorem componentOf_of_dash_mem (h : '-' ∈ name) : componentOf name = .name name := by
  have hup : name ≠ ['.', '.'] := fun he => by simp [he] at h
  have hhere : name ≠ ['.'] := fun he => by simp [he] at h
  rw [componentOf, if_neg hup, if_neg hhere]

section Named

variable (dir : Path) (hsep : '/' ∉ name) (hdash : '-' ∈ name)

include hsep hdash

theorem components_join_dashed :
    (dir.join (ofChars name)).components = dir.components ++ [.name name] := by
  rw [components_join_name dir hsep (isBlank_of_dash_mem hdash), componentOf_of_dash_mem hdash]

theorem fileName_join_dashed : (dir.join (ofChars name)).fileName? = some name := by
  rw [fileName?, components_join_dashed dir hsep hdash, List.getLast?_concat]

/-- A directory is what is above a name joined to it, however the directory is written. -/
theorem parent_join_dashed :
    ∃ above, (dir.join (ofChars name)).parent? = some above ∧ above.same dir = true := by
  have hroot : (dir.join (ofChars name)).isAbsolute = true → dir.components ≠ [] := by
    intro habs
    rw [isAbsolute_join_name dir hsep] at habs
    obtain ⟨rest, hrest⟩ := exists_components_of_isAbsolute habs
    rw [hrest]
    exact List.cons_ne_nil _ _
  obtain ⟨above, habove, hsame⟩ := exists_parent (components_join_dashed dir hsep hdash) hroot
  exact ⟨above, habove, by rw [same, hsame, beq_self_eq_true]⟩

end Named

end Path

section Artifact

variable {s : Search} {platform : String} {t : Target}

theorem slash_notMem_nativeExtension (platform : String) :
    '/' ∉ (nativeExtension platform).toList := by
  unfold nativeExtension
  split <;> decide

theorem slash_notMem_ending (h : ∀ extension ∈ s.extension, '/' ∉ extension.toList) :
    '/' ∉ (s.ending platform).toList := by
  rw [Search.ending]
  cases he : s.extension with
  | none => exact slash_notMem_nativeExtension platform
  | some extension => exact h extension he

theorem isAbsolute_artifact (s : Search) (platform : String) (t : Target) :
    (⟨s.artifact platform t⟩ : Path).isAbsolute = (s.stem.toList.head? == some '/') := by
  rw [Path.isAbsolute, Path.chars, Search.artifact]
  cases h : s.stem.toList <;> simp [h]

theorem slash_notMem_artifact (hstem : '/' ∉ s.stem.toList) (ht : t.key.SlashFree)
    (hextension : ∀ extension ∈ s.extension, '/' ∉ extension.toList) :
    '/' ∉ (s.artifact platform t).toList := by
  have hid : '/' ∉ t.shortId.toList := ht.shortId
  have hending : '/' ∉ (s.ending platform).toList := slash_notMem_ending hextension
  simp [Search.artifact, hstem, hid, hending]

theorem dash_mem_artifact (s : Search) (platform : String) (t : Target) :
    '-' ∈ (s.artifact platform t).toList := by
  have hid : '-' ∈ t.shortId.toList := t.key.dash_mem_shortId
  simp [Search.artifact, hid]

theorem slashFree_of_mem_lookup {rows : List Triple} (hslash : ∀ r ∈ rows, r.key.SlashFree)
    {arch : String} {targets : List Target}
    (hl : (Catalog.ofTriples rows).lookup platform arch = .ok targets) (ht : t ∈ targets) :
    t.key.SlashFree := by
  rw [ofTriples_eq_grouped] at hl
  obtain ⟨-, rfl⟩ := lookup_eq_ok_iff.mp hl
  exact slashFree_of_mem_targetsOf hslash ht

/-- An absolute stem leads to the same place from anywhere. -/
theorem join_artifact (dir : Path) (h : s.stem.toList.head? = some '/') :
    dir.join ⟨s.artifact platform t⟩ = ⟨s.artifact platform t⟩ := by
  rw [Path.join, isAbsolute_artifact, h]
  rfl

theorem plan_of_lookup (s : Search) (hfamily : s.family = none) {catalog : Catalog} {arch : String}
    {targets : List Target} (h : catalog.lookup platform arch = .ok targets) :
    s.plan catalog platform arch =
      .ok (targets.map fun t => ⟨t, .file (s.dir.join ⟨s.artifact platform t⟩)⟩) := by
  simp only [Search.plan, h, Search.attempt, hfamily]

end Artifact

/-- Without a family every candidate is a file. Unless the stem is absolute it is in the directory of
the search or below it, and unless the stem or the ending asks for directories of its own the search's
directory is right above it. An absolute stem makes the directory irrelevant. -/
theorem files_lie_under_dir {η β : Type} [Host η β] (s : Search) (rows : List Triple)
    (hslash : ∀ r ∈ rows, '/' ∉ r.platform.toList ∧ '/' ∉ r.arch.toList ∧
      ∀ abi ∈ r.abi, '/' ∉ abi.toList)
    (hfamily : s.family = none) (context : List String) (host : η) :
    let pair := s.target.getD (Host.platform host, Host.arch host)
    let ending := match s.extension with
      | some extension => extension
      | none => nativeExtension pair.1
    let listed := fun search : Search => ((search.candidates (.ofTriples rows) :
      Session η (Except ResolveError (List Candidate))).run context host).value
    ∀ targets, (Catalog.ofTriples rows).lookup pair.1 pair.2 = .ok targets →
      ∃ candidates, listed s = .ok candidates ∧ candidates.map (fun c => c.target) = targets ∧
        (s.stem.toList.head? = some '/' → ∀ dir, listed { s with dir := dir } = .ok candidates) ∧
        ∀ c ∈ candidates, ∃ path, c.attempt = .file path ∧
          (s.stem.toList.head? ≠ some '/' → path.startsWith s.dir = true) ∧
          ('/' ∉ s.stem.toList → (∀ extension ∈ s.extension, '/' ∉ extension.toList) →
            (∃ above, path.parent? = some above ∧ above.same s.dir = true) ∧
            path.fileName? =
              some (s.stem ++ "." ++ c.target.shortId ++ "." ++ ending).toList) := by
  intro pair ending listed targets hl
  have hlisted (dir : Path) : listed { s with dir := dir } =
      .ok (targets.map fun t => ⟨t, .file (dir.join ⟨s.artifact pair.1 t⟩)⟩) :=
    (congrArg Outcome.value (run_candidates _ _ context host)).trans
      (plan_of_lookup { s with dir := dir } hfamily hl)
  refine ⟨_, hlisted s.dir, by rw [List.map_map]; exact List.map_id _, fun habs dir => ?_,
    fun c hc => ?_⟩
  · have hsame (t : Target) : dir.join ⟨s.artifact pair.1 t⟩ = s.dir.join ⟨s.artifact pair.1 t⟩ :=
      (join_artifact dir habs).trans (join_artifact s.dir habs).symm
    simp only [hlisted dir, hsame]
  · obtain ⟨t, ht, rfl⟩ := List.mem_map.mp hc
    refine ⟨s.dir.join ⟨s.artifact pair.1 t⟩, rfl, fun hrel => ?_, fun hstem hextension => ?_⟩
    · have hartifact : (⟨s.artifact pair.1 t⟩ : Path).isAbsolute = false := by
        rw [isAbsolute_artifact]
        simpa using hrel
      exact Path.startsWith_join s.dir hartifact
    · have hkey := slashFree_of_mem_lookup (fun r hr => ⟨(hslash r hr).1, (hslash r hr).2.1,
        (hslash r hr).2.2⟩) hl ht
      have hending : s.ending pair.1 = ending := by
        simp only [Search.ending, ending]
        cases s.extension <;> rfl
      have hname : s.stem ++ "." ++ t.shortId ++ "." ++ ending = s.artifact pair.1 t := by
        rw [Search.artifact, hending]
      have hsep : '/' ∉ (s.artifact pair.1 t).toList :=
        slash_notMem_artifact hstem hkey hextension
      have hdash := dash_mem_artifact s pair.1 t
      have hchars : (⟨s.artifact pair.1 t⟩ : Path) = .ofChars (s.artifact pair.1 t).toList :=
        Path.eq_of_chars (Path.chars_ofChars _).symm
      rw [hchars, hname]
      exact ⟨Path.parent_join_dashed s.dir hsep hdash, Path.fileName_join_dashed s.dir hsep hdash⟩

/-- A directory that is written with dots and too many slashes, and a stem that leads away from it. -/
theorem crooked_dir_holds_its_file :
    let rows : List Triple := [⟨"darwin", "x64", none, "x86_64-apple-darwin"⟩]
    let s : Search := { dir := ⟨"app/..//lib/."⟩, target := some ("darwin", "x64") }
    let away : Search := { s with stem := "/opt/scan" }
    let host : FixedHost Unit := ⟨"linux", "x64", fun _ => false, fun _ => .ok (), fun name _ =>
      .error (.notFound name)⟩
    let listed := fun search : Search => ((search.candidates (.ofTriples rows) :
      Session (FixedHost Unit) (Except ResolveError (List Candidate))).run [] host).value
    (∀ r ∈ rows, '/' ∉ r.platform.toList ∧ '/' ∉ r.arch.toList ∧ ∀ abi ∈ r.abi, '/' ∉ abi.toList) ∧
    (∃ c path above, listed s = .ok [c] ∧ c.attempt = .file path ∧
      path.text = "app/..//lib/./index.darwin-x64.dylib" ∧ path.startsWith s.dir = true ∧
      path.parent? = some above ∧ above.same s.dir = true ∧
      path.fileName? = some "index.darwin-x64.dylib".toList) ∧
    ∀ dir, listed { away with dir := dir } = listed away := by
  intro rows s away host listed
  have hslash : ∀ r ∈ rows, '/' ∉ r.platform.toList ∧ '/' ∉ r.arch.toList ∧
      ∀ abi ∈ r.abi, '/' ∉ abi.toList := by
    decide +kernel
  obtain ⟨candidates, hlisted, htargets, -, hfiles⟩ :=
    files_lie_under_dir s rows hslash rfl [] host _ rfl
  obtain ⟨_, haway, -, hanywhere, -⟩ := files_lie_under_dir away rows hslash rfl [] host _ rfl
  change listed s = .ok candidates at hlisted
  refine ⟨hslash, ?_, fun dir => (hanywhere (by decide +kernel) dir).trans haway.symm⟩
  obtain ⟨c, rfl, ht⟩ : ∃ c, candidates = [c] ∧ c.target.shortId = "darwin-x64" := by
    obtain ⟨c, rfl, hc⟩ := List.map_eq_singleton_iff.mp htargets
    exact ⟨c, rfl, hc ▸ by decide +kernel⟩
  obtain ⟨path, hpath, hstarts, hright⟩ := hfiles c List.mem_cons_self
  obtain ⟨⟨above, habove, hsame⟩, hname⟩ := hright (by decide +kernel) (by simp [s])
  refine ⟨c, path, above, hlisted, hpath, ?_, hstarts (by decide +kernel), habove, hsame, ?_⟩
  · have htext : (listed s).map (fun l => l.map fun c => c.attempt.text) =
        .ok ["app/..//lib/./index.darwin-x64.dylib"] := by
      decide +kernel
    rw [hlisted] at htext
    simpa [Except.map, hpath, Attempt.text] using htext
  · rw [hname, ht]
    decide +kernel

end Prebuilt
