import Prebuilt.Proofs.Flattening

/-! A catalog written out as a table again. Its builds stand together there, in the order of the
catalog and not in that of the first table, and still the same catalog is read back. -/

namespace Prebuilt

theorem eraseDups_of_nodup {κ : Type} [BEq κ] [LawfulBEq κ] {l : List κ} (h : l.Nodup) :
    l.eraseDups = l := by
  induction l using List.reverseRecOn with
  | nil => rfl
  | append_singleton l k ih =>
    obtain ⟨hl, -, hdisjoint⟩ := List.nodup_append.mp h
    have hk : k ∉ l := fun hk => hdisjoint k hk k (List.mem_singleton_self k) rfl
    rw [eraseDups_concat_of_notMem hk, ih hl]

/-- The rows that give a build all its names. -/
def Target.rows (t : Target) : List Triple :=
  t.rawTriples.map fun raw => ⟨t.platform, t.arch, t.abi, raw⟩

def Catalog.table (c : Catalog) : List Triple := c.targets.flatMap Target.rows

theorem Target.key_of_mem_rows {t : Target} {r : Triple} (hr : r ∈ t.rows) : r.key = t.key := by
  obtain ⟨raw, -, rfl⟩ := List.mem_map.mp hr
  rfl

theorem Target.rows_ne_nil (t : Target) : t.rows ≠ [] := by
  simp [rows, rawTriples]

theorem flatMap_rows_ne_nil {targets : List Target} (h : targets ≠ []) :
    targets.flatMap Target.rows ≠ [] := by
  obtain ⟨t, ht⟩ := List.exists_mem_of_ne_nil targets h
  obtain ⟨r, hr⟩ := List.exists_mem_of_ne_nil t.rows t.rows_ne_nil
  exact List.ne_nil_of_mem (List.mem_flatMap.mpr ⟨t, ht, hr⟩)

/-- The rows whose key has a property are those of the builds whose key has it. -/
theorem filter_flatMap_rows (targets : List Target) (keep : TargetKey → Bool) :
    (targets.flatMap Target.rows).filter (fun r => keep r.key) =
      (targets.filter fun t => keep t.key).flatMap Target.rows := by
  induction targets with
  | nil => rfl
  | cons t targets ih =>
    have hkey : t.rows.filter (fun r => keep r.key) = t.rows.filter fun _ => keep t.key :=
      List.filter_congr fun r hr => by rw [Target.key_of_mem_rows hr]
    rw [List.flatMap_cons, List.filter_append, ih, hkey, List.filter_cons]
    cases keep t.key <;> simp

section Table

variable (rows : List Triple)

theorem filter_table_platform (p : String) :
    (grouped rows).table.filter (fun r => r.platform = p) =
      (platformTargets rows p).flatMap Target.rows := by
  rw [← filter_targets_platform]
  exact filter_flatMap_rows (grouped rows).targets fun k => k.platform = p

theorem filter_table_pair (p a : String) :
    (grouped rows).table.filter (fun r => r.platform = p ∧ r.arch = a) =
      (targetsOf rows p a).flatMap Target.rows := by
  rw [← filter_targets_pair]
  exact filter_flatMap_rows (grouped rows).targets fun k => k.platform = p ∧ k.arch = a

theorem filter_table_key {k : TargetKey} (h : ∃ r ∈ rows, r.key = k) :
    (grouped rows).table.filter (fun r => r.key = k) = (targetOf rows k).rows := by
  have hkey := filter_targets_key rows k
  rw [if_pos h] at hkey
  have hrows := filter_flatMap_rows (grouped rows).targets fun key => key = k
  rw [hkey] at hrows
  simpa [Catalog.table] using hrows

variable {rows}

theorem targetsOf_ne_nil {p a : String} (h : ∃ r ∈ rows, r.platform = p ∧ r.arch = a) :
    targetsOf rows p a ≠ [] := by
  obtain ⟨r, hr, he⟩ := h
  rw [targetsOf, ne_eq, List.map_eq_nil_iff]
  exact eraseDups_ne_nil (List.ne_nil_of_mem (List.mem_map.mpr ⟨r, by simp [hr, he], rfl⟩))

theorem platformTargets_ne_nil {p : String} (h : ∃ r ∈ rows, r.platform = p) :
    platformTargets rows p ≠ [] := by
  obtain ⟨r, hr, hp⟩ := h
  obtain ⟨t, ht⟩ := List.exists_mem_of_ne_nil _ (targetsOf_ne_nil ⟨r, hr, hp, rfl⟩)
  refine List.ne_nil_of_mem (List.mem_flatMap.mpr ⟨r.arch, ?_, ht⟩)
  exact List.mem_eraseDups.mpr (List.mem_map.mpr ⟨r, by simp [hr, hp], rfl⟩)

variable (rows)

theorem platforms_table : ((grouped rows).table.map fun r => r.platform).eraseDups =
    (rows.map fun r => r.platform).eraseDups := by
  rw [Catalog.table, targets_grouped, List.flatMap_assoc]
  apply eraseDups_map_flatMap_blocks (nodup_eraseDups _)
  · intro p _ r hr
    obtain ⟨t, ht, hr⟩ := List.mem_flatMap.mp hr
    rw [← platform_of_mem_platformTargets ht]
    exact congrArg TargetKey.platform (Target.key_of_mem_rows hr)
  · intro p hp
    have hrow : ∃ r ∈ rows, r.platform = p := by simpa using hp
    exact flatMap_rows_ne_nil (platformTargets_ne_nil hrow)

theorem archs_table (p : String) :
    (((grouped rows).table.filter fun r => r.platform = p).map fun r => r.arch).eraseDups =
      ((rows.filter fun r => r.platform = p).map fun r => r.arch).eraseDups := by
  rw [filter_table_platform, platformTargets, List.flatMap_assoc]
  apply eraseDups_map_flatMap_blocks (nodup_eraseDups _)
  · intro a _ r hr
    obtain ⟨t, ht, hr⟩ := List.mem_flatMap.mp hr
    rw [← (key_of_mem_targetsOf ht).2]
    exact congrArg TargetKey.arch (Target.key_of_mem_rows hr)
  · intro a ha
    have hrow : ∃ r ∈ rows, r.platform = p ∧ r.arch = a := by simpa [and_assoc] using ha
    exact flatMap_rows_ne_nil (targetsOf_ne_nil hrow)

theorem abis_table (p a : String) :
    (((grouped rows).table.filter fun r => r.platform = p ∧ r.arch = a).map
        fun r => r.abi).eraseDups =
      ((rows.filter fun r => r.platform = p ∧ r.arch = a).map fun r => r.abi).eraseDups := by
  rw [filter_table_pair, targetsOf, List.flatMap_map]
  apply eraseDups_map_flatMap_blocks (nodup_eraseDups _)
  · intro abi _ r hr
    exact congrArg TargetKey.abi (Target.key_of_mem_rows hr)
  · exact fun abi _ => Target.rows_ne_nil _

theorem rawsOf_table {k : TargetKey} (h : ∃ r ∈ rows, r.key = k) :
    rawsOf (grouped rows).table k = rawsOf rows k := by
  have hraws : (targetOf rows k).rows.map (fun r => r.raw) = rawsOf rows k := by
    rw [Target.rows, List.map_map, ← rawTriples_targetOf h]
    exact List.map_id _
  rw [rawsOf, filter_table_key rows h, hraws]
  exact eraseDups_of_nodup (nodup_eraseDups _)

theorem targetsOf_table (p a : String) :
    targetsOf (grouped rows).table p a = targetsOf rows p a := by
  rw [targetsOf, abis_table, targetsOf]
  refine List.map_congr_left fun abi habi => ?_
  have hrow : ∃ r ∈ rows, r.key = ⟨p, a, abi⟩ := by simpa [Triple.key, and_assoc] using habi
  rw [targetOf, rawsOf_table rows hrow, targetOf]

theorem archsOf_table (p : String) : archsOf (grouped rows).table p = archsOf rows p := by
  simp only [archsOf, archs_table, targetsOf_table]

end Table

/-- What is written out of a catalog reads back as that very catalog, whatever the order of the
rows was that it came from. -/
theorem ofTriples_table (rows : List Triple) :
    Catalog.ofTriples (Catalog.ofTriples rows).table = Catalog.ofTriples rows := by
  rw [ofTriples_eq_grouped rows, ofTriples_eq_grouped]
  calc grouped (grouped rows).table
      = ⟨((grouped rows).table.map fun r => r.platform).eraseDups.map fun p =>
          ⟨p, archsOf (grouped rows).table p⟩⟩ := rfl
    _ = ⟨(rows.map fun r => r.platform).eraseDups.map fun p => ⟨p, archsOf rows p⟩⟩ := by
        simp only [platforms_table, archsOf_table]

example : (Catalog.ofTriples [⟨"linux", "arm", some "gnu", "armv7"⟩,
    ⟨"linux", "x64", none, "x86_64"⟩, ⟨"linux", "arm", some "gnu", "armv6"⟩]).table =
      [⟨"linux", "arm", some "gnu", "armv7"⟩, ⟨"linux", "arm", some "gnu", "armv6"⟩,
        ⟨"linux", "x64", none, "x86_64"⟩] := by
  decide

end Prebuilt
