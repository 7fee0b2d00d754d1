import Prebuilt.Proofs.Grouping
import Prebuilt.Search

/-! The candidates of a search. There is one for each build of the pair, and the packages among them
are as distinct as the builds are. -/

namespace Prebuilt

theorem ne_append_dash (text more : String) : text ≠ text ++ "-" ++ more := by
  intro h
  have hl := congrArg String.length h
  have hd : "-".length = 1 := rfl
  simp only [String.length_append, hd] at hl
  omega

theorem shortId_injective (platform arch : String) :
    Function.Injective fun abi => TargetKey.shortId ⟨platform, arch, abi⟩ := by
  intro abi abi' h
  cases abi with
  | none =>
    cases abi' with
    | none => rfl
    | some text' => exact absurd h (ne_append_dash _ text')
  | some text =>
    cases abi' with
    | none => exact absurd h.symm (ne_append_dash _ text)
    | some text' => exact congrArg some ((String.append_right_inj _).mp h)

theorem nodup_shortIds (rows : List Triple) (platform arch : String) :
    ((targetsOf rows platform arch).map fun t => t.shortId).Nodup := by
  rw [targetsOf, List.map_map]
  exact (nodup_eraseDups _).map (shortId_injective platform arch)

theorem forTarget_injective (family : PackageName) : Function.Injective family.forTarget := by
  intro shortId shortId' h
  have ht : family.text ++ "-" ++ shortId = family.text ++ "-" ++ shortId' :=
    congrArg PackageName.text h
  exact (String.append_right_inj _).mp ht

namespace TargetKey

/-- A short id that stays in one segment of a path. -/
structure SlashFree (k : TargetKey) : Prop where
  platform : '/' ∉ k.platform.toList
  arch : '/' ∉ k.arch.toList
  abi : ∀ abi ∈ k.abi, '/' ∉ abi.toList

theorem SlashFree.shortId {k : TargetKey} (h : k.SlashFree) : '/' ∉ k.shortId.toList := by
  rw [TargetKey.shortId]
  cases habi : k.abi with
  | none => simp [h.platform, h.arch]
  | some abi => simp [h.platform, h.arch, h.abi abi habi]

theorem dash_mem_shortId (k : TargetKey) : '-' ∈ k.shortId.toList := by
  rw [shortId]
  cases k.abi <;> simp

end TargetKey

section Plan

variable {s : Search} {catalog : Catalog} {platform arch : String} {candidates : List Candidate}

theorem exists_targets_of_plan (h : s.plan catalog platform arch = .ok candidates) :
    ∃ targets, catalog.lookup? platform arch = some targets ∧
      candidates = targets.map fun t => ⟨t, s.attempt platform t⟩ := by
  cases hl : catalog.lookup? platform arch with
  | none => simp [s.plan_of_none hl] at h
  | some targets =>
    rw [s.plan_of_some hl] at h
    exact ⟨targets, rfl, (Except.ok.inj h).symm⟩

theorem eq_unsupported_of_plan {e : ResolveError}
    (h : s.plan catalog platform arch = .error e) : e = .unsupportedTarget platform arch := by
  cases hl : catalog.lookup? platform arch with
  | none =>
    rw [s.plan_of_none hl] at h
    exact (Except.error.inj h).symm
  | some targets => simp [s.plan_of_some hl] at h

theorem attempt_of_mem_plan (h : s.plan catalog platform arch = .ok candidates) {c : Candidate}
    (hc : c ∈ candidates) : c.attempt = s.attempt platform c.target := by
  obtain ⟨targets, -, rfl⟩ := exists_targets_of_plan h
  obtain ⟨t, -, rfl⟩ := List.mem_map.mp hc
  rfl

theorem attempt_eq_file_of_mem_plan (h : s.plan catalog platform arch = .ok candidates)
    (hs : s.family = none) {c : Candidate} (hc : c ∈ candidates) :
    c.attempt = .file (s.dir.join ⟨s.artifact platform c.target⟩) := by
  rw [attempt_of_mem_plan h hc, Search.attempt, hs]

theorem attempt_eq_package_of_mem_plan (h : s.plan catalog platform arch = .ok candidates)
    {family : PackageName} (hs : s.family = some family) {c : Candidate} (hc : c ∈ candidates) :
    c.attempt = .package (family.forTarget c.target.shortId) := by
  rw [attempt_of_mem_plan h hc, Search.attempt, hs]

theorem nodup_packages {rows : List Triple} {family : PackageName}
    (h : s.plan (.ofTriples rows) platform arch = .ok candidates) (hs : s.family = some family) :
    (candidates.map fun c => c.attempt).Nodup := by
  obtain ⟨targets, hl, rfl⟩ := exists_targets_of_plan h
  rw [ofTriples_eq_grouped, lookup_grouped] at hl
  have ht : targetsOf rows platform arch = targets := by
    split at hl
    · exact Option.some.inj hl
    · simp at hl
  have hmap : (targets.map fun t => (⟨t, s.attempt platform t⟩ : Candidate)).map
      (fun c => c.attempt) =
      (targets.map fun t => t.shortId).map fun id => Attempt.package (family.forTarget id) := by
    simp [Search.attempt, hs, Function.comp_def]
  rw [hmap, ← ht]
  refine (nodup_shortIds rows platform arch).map fun id id' he => ?_
  exact forTarget_injective family (Attempt.package.inj he)

end Plan

end Prebuilt
