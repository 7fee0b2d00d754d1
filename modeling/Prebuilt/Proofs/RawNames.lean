import Mathlib.Data.List.Nodup
import Prebuilt.Catalog.BuiltIn
import Prebuilt.Proofs.Flattening

/-! Raw names looked up in a catalog. A name that some row gives is always found, in the first build
of the catalog that has it, and a name of one build alone leads to that build. -/

namespace Prebuilt

section Lookup

variable {rows : List Triple} {raw : String} {t : Target}

/-- No name of a build comes from elsewhere than its rows, and none of theirs is lost. -/
theorem mem_rawTriples_iff (ht : t ∈ (grouped rows).targets) :
    raw ∈ t.rawTriples ↔ ∃ r ∈ rows, r.key = t.key ∧ r.raw = raw := by
  obtain ⟨hrow, he⟩ := mem_targets_iff.mp ht
  have hraws : t.rawTriples = rawsOf rows t.key := by
    rw [he]
    exact rawTriples_targetOf hrow
  rw [hraws, rawsOf, List.mem_eraseDups]
  simp [and_assoc]

theorem findRaw_eq_some_iff : (grouped rows).findRaw? raw = some t ↔
    ∃ before after, (grouped rows).targets = before ++ t :: after ∧
      (∃ r ∈ rows, r.key = t.key ∧ r.raw = raw) ∧
      ∀ u ∈ before, ∀ r ∈ rows, r.key = u.key → r.raw ≠ raw := by
  rw [Catalog.findRaw?, List.find?_eq_some_iff_append]
  constructor
  · rintro ⟨hhas, before, after, hsplit, hbefore⟩
    have ht : t ∈ (grouped rows).targets := by simp [hsplit]
    refine ⟨before, after, hsplit, ?_, fun u hu r hr hkey hraw => ?_⟩
    · exact (mem_rawTriples_iff ht).mp (by simpa using hhas)
    · have hu' : u ∈ (grouped rows).targets := by simp [hsplit, hu]
      have hin : raw ∈ u.rawTriples := (mem_rawTriples_iff hu').mpr ⟨r, hr, hkey, hraw⟩
      have hout := hbefore u hu
      simp [hin] at hout
  · rintro ⟨before, after, hsplit, hrow, hbefore⟩
    have ht : t ∈ (grouped rows).targets := by simp [hsplit]
    have hin : raw ∈ t.rawTriples := (mem_rawTriples_iff ht).mpr hrow
    refine ⟨by simpa using hin, before, after, hsplit, fun u hu => ?_⟩
    have hu' : u ∈ (grouped rows).targets := by simp [hsplit, hu]
    have hout : raw ∉ u.rawTriples := by
      intro hin
      obtain ⟨r, hr, hkey, hraw⟩ := (mem_rawTriples_iff hu').mp hin
      exact hbefore u hu r hr hkey hraw
    simpa using hout

theorem findRaw_eq_none_iff :
    (grouped rows).findRaw? raw = none ↔ ∀ r ∈ rows, r.raw ≠ raw := by
  rw [Catalog.findRaw?, List.find?_eq_none]
  constructor
  · intro h r hr hraw
    have ht : targetOf rows r.key ∈ (grouped rows).targets :=
      mem_targets_iff.mpr ⟨⟨r, hr, rfl⟩, rfl⟩
    have hin : raw ∈ (targetOf rows r.key).rawTriples :=
      (mem_rawTriples_iff ht).mpr ⟨r, hr, rfl, hraw⟩
    exact h _ ht (by simpa using hin)
  · intro h t ht hhas
    obtain ⟨r, hr, -, hraw⟩ := (mem_rawTriples_iff ht).mp (by simpa using hhas)
    exact h r hr hraw

/-- If all rows of a name are of one key, it does not matter which build is looked at first. -/
theorem findRaw_of_one_key {k : TargetKey} (hrow : ∃ r ∈ rows, r.raw = raw)
    (hone : ∀ r ∈ rows, r.raw = raw → r.key = k) :
    (grouped rows).findRaw? raw = some (targetOf rows k) := by
  obtain ⟨r, hr, hraw⟩ := hrow
  cases hfind : (grouped rows).findRaw? raw with
  | none => exact absurd hraw (findRaw_eq_none_iff.mp hfind r hr)
  | some t =>
    obtain ⟨before, after, hsplit, ⟨r', hr', hkey, hraw'⟩, -⟩ := findRaw_eq_some_iff.mp hfind
    have ht : t ∈ (grouped rows).targets := by simp [hsplit]
    have hk : t.key = k := hkey.symm.trans (hone r' hr' hraw')
    rw [(mem_targets_iff.mp ht).2, hk]

end Lookup

/-- A raw name is found exactly if a row has it, in the first build with such a row, builds being
grouped by platform and architecture and not in the order of the table. A name of one build alone
leads to the one build of its interface in the look-up of its pair, and so does every other name
that this build alone goes by. -/
theorem raw_name_leads_to_first_build (rows : List Triple) (raw : String) :
    let c := Catalog.ofTriples rows
    (c.targets = c.platforms.flatMap fun p => (c.architectures p).flatMap fun a =>
      (c.lookup? p a).getD []) ∧
    (c.findRaw? raw = none ↔ ∀ r ∈ rows, r.raw ≠ raw) ∧
    (∀ t, c.findRaw? raw = some t ↔ ∃ before after, c.targets = before ++ t :: after ∧
      (∃ r ∈ rows, r.key = t.key ∧ r.raw = raw) ∧
      ∀ u ∈ before, ∀ r ∈ rows, r.key = u.key → r.raw ≠ raw) ∧
    ∀ k : TargetKey, (∃ r ∈ rows, r.raw = raw) → (∀ r ∈ rows, r.raw = raw → r.key = k) →
      ∃ targets t, c.lookup k.platform k.arch = .ok targets ∧
        targets.filter (fun u => u.abi = k.abi) = [t] ∧ c.findRaw? raw = some t ∧
        t.rawTriples = ((rows.filter fun r => r.key = k).map fun r => r.raw).eraseDups ∧
        ∀ other ∈ t.rawTriples, (∀ r ∈ rows, r.raw = other → r.key = k) →
          c.findRaw? other = some t := by
  dsimp only
  rw [ofTriples_eq_grouped]
  refine ⟨targets_eq_flatMap_lookup rows, findRaw_eq_none_iff, fun t => findRaw_eq_some_iff,
    fun k hrow hone => ?_⟩
  have hkey : ∃ r ∈ rows, r.key = k := by
    obtain ⟨r, hr, hraw⟩ := hrow
    exact ⟨r, hr, hone r hr hraw⟩
  have hraws : (targetOf rows k).rawTriples = rawsOf rows k := rawTriples_targetOf hkey
  refine ⟨targetsOf rows k.platform k.arch, targetOf rows k, ?_, ?_, findRaw_of_one_key hrow hone,
    hraws, fun other hother hall => ?_⟩
  · obtain ⟨r, hr, rfl⟩ := hkey
    exact lookup_eq_ok_iff.mpr ⟨⟨r, hr, rfl, rfl⟩, rfl⟩
  · rw [filter_targetsOf_abi, filter_targets_key, if_pos hkey]
  · rw [hraws, rawsOf, List.mem_eraseDups] at hother
    obtain ⟨r, hr, rfl⟩ := List.mem_map.mp hother
    exact findRaw_of_one_key ⟨r, (List.mem_filter.mp hr).1, rfl⟩ hall

example : (Catalog.ofTriples [⟨"linux", "x64", none, "x86_64-linux"⟩,
    ⟨"win32", "arm", none, "armv7"⟩, ⟨"linux", "arm", none, "armv7"⟩]).findRaw? "armv7" =
      some ⟨⟨"linux", "arm", none⟩, "armv7", []⟩ := by
  decide

/-- Of the targets known without being told no two rows share a raw name, so that each of them leads
to its own build with all the others that this build goes by. -/
theorem builtIn_raw_names_lead_home :
    (builtInTriples.map fun r => r.raw).Nodup ∧
    ∀ r ∈ builtInTriples, ∃ targets t, Catalog.builtIn.lookup r.platform r.arch = .ok targets ∧
      targets.filter (fun u => u.abi = r.abi) = [t] ∧
      r.raw ∈ t.rawTriples ∧ ∀ other ∈ t.rawTriples, Catalog.builtIn.findRaw? other = some t := by
  have hnodup : (builtInTriples.map fun r => r.raw).Nodup := by decide +kernel
  have hone : ∀ r ∈ builtInTriples, ∀ r' ∈ builtInTriples, r'.raw = r.raw → r'.key = r.key := by
    intro r hr r' hr' he
    rw [List.inj_on_of_nodup_map hnodup hr' hr he]
  refine ⟨hnodup, fun r hr => ?_⟩
  obtain ⟨-, -, -, hbuild⟩ := raw_name_leads_to_first_build builtInTriples r.raw
  obtain ⟨targets, t, hlookup, hfilter, -, hraws, hothers⟩ :=
    hbuild r.key ⟨r, hr, rfl⟩ fun r' hr' he => hone r hr r' hr' he
  have hmem (other : String) :
      other ∈ t.rawTriples ↔ ∃ row ∈ builtInTriples, row.key = r.key ∧ row.raw = other := by
    rw [hraws, List.mem_eraseDups]
    simp [and_assoc]
  refine ⟨targets, t, hlookup, hfilter, (hmem r.raw).mpr ⟨r, hr, rfl, rfl⟩, fun other hother => ?_⟩
  obtain ⟨row, hrow, hkey, rfl⟩ := (hmem other).mp hother
  apply hothers row.raw hother
  intro r' hr' he
  exact (hone row hrow r' hr' he).trans hkey

end Prebuilt
