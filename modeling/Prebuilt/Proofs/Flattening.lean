import Prebuilt.Proofs.Grouping

/-! A catalog as one list. Flattened, the builds of a table are the look-ups of its pairs one after
the other, and each key of the table has exactly one of them. -/

namespace Prebuilt

section Blocks

variable {κ α : Type} {ks : List κ} {block : κ → List α} {f : α → κ}

/-- Out of blocks of distinct keys a filter for one key takes the block of that key. -/
theorem filter_flatMap_blocks [DecidableEq κ] (hnd : ks.Nodup)
    (hblock : ∀ k ∈ ks, ∀ x ∈ block k, f x = k) (k : κ) :
    (ks.flatMap block).filter (fun x => f x = k) = if k ∈ ks then block k else [] := by
  induction ks with
  | nil => simp
  | cons j ks ih =>
    obtain ⟨hj, hnd⟩ := List.nodup_cons.mp hnd
    have hrest := ih hnd fun i hi => hblock i (List.mem_cons_of_mem j hi)
    have hhead := hblock j List.mem_cons_self
    rw [List.flatMap_cons, List.filter_append, hrest]
    by_cases he : j = k
    · subst he
      have hall : (block j).filter (fun x => f x = j) = block j :=
        List.filter_eq_self.mpr fun x hx => decide_eq_true (hhead x hx)
      simp [hall, hj]
    · have hnone : (block j).filter (fun x => f x = k) = [] :=
        List.filter_eq_nil_iff.mpr fun x hx => by simp [hhead x hx, he]
      simp [hnone, Ne.symm he]

variable [BEq κ] [LawfulBEq κ]

theorem eraseDups_of_forall_eq {l : List κ} {k : κ} (hne : l ≠ []) (h : ∀ x ∈ l, x = k) :
    l.eraseDups = [k] := by
  cases l with
  | nil => exact absurd rfl hne
  | cons x l =>
    obtain rfl := h x List.mem_cons_self
    have hnone : l.filter (fun y => !y == x) = [] :=
      List.filter_eq_nil_iff.mpr fun y hy => by simp [h y (List.mem_cons_of_mem x hy)]
    rw [List.eraseDups_cons, hnone, List.eraseDups_nil]

/-- The keys of nonempty blocks of distinct keys appear in the order of the blocks. -/
theorem eraseDups_map_flatMap_blocks (hnd : ks.Nodup)
    (hblock : ∀ k ∈ ks, ∀ x ∈ block k, f x = k) (hne : ∀ k ∈ ks, block k ≠ []) :
    ((ks.flatMap block).map f).eraseDups = ks := by
  induction ks with
  | nil => rfl
  | cons j ks ih =>
    obtain ⟨hj, hnd⟩ := List.nodup_cons.mp hnd
    have hrest := ih hnd (fun i hi => hblock i (List.mem_cons_of_mem j hi))
      fun i hi => hne i (List.mem_cons_of_mem j hi)
    have hhead : ((block j).map f).eraseDups = [j] := by
      apply eraseDups_of_forall_eq
      · simpa using hne j List.mem_cons_self
      · exact List.forall_mem_map.mpr (hblock j List.mem_cons_self)
    have hkept : ((ks.flatMap block).map f).removeAll ((block j).map f) =
        (ks.flatMap block).map f := by
      apply List.filter_eq_self.mpr
      intro k hk
      simp only [List.mem_map, List.mem_flatMap] at hk
      obtain ⟨x, ⟨i, hi, hx⟩, rfl⟩ := hk
      have hxi := hblock i (List.mem_cons_of_mem j hi) x hx
      have hnot : f x ∉ (block j).map f := by
        intro hin
        obtain ⟨y, hy, he⟩ := List.mem_map.mp hin
        have hyj := hblock j List.mem_cons_self y hy
        exact hj (hyj ▸ he ▸ hxi ▸ hi)
      simpa using hnot
    rw [List.flatMap_cons, List.map_append, List.eraseDups_append, hhead, hkept, hrest,
      List.singleton_append]

end Blocks

theorem Target.key_eq_iff {t : Target} {p a : String} {abi : Option String} :
    t.key = ⟨p, a, abi⟩ ↔ t.platform = p ∧ t.arch = a ∧ t.abi = abi := by
  rw [platform, arch, Target.abi]
  cases t.key
  rw [TargetKey.mk.injEq]

section Flat

variable (rows : List Triple)

def platformTargets (p : String) : List Target :=
  ((rows.filter fun r => r.platform = p).map fun r => r.arch).eraseDups.flatMap fun a =>
    targetsOf rows p a

theorem targets_grouped : (grouped rows).targets =
    (rows.map fun r => r.platform).eraseDups.flatMap fun p => platformTargets rows p := by
  simp [Catalog.targets, grouped, archsOf, platformTargets, List.flatMap_map]

theorem targets_eq_flatMap_lookup : (grouped rows).targets =
    (grouped rows).platforms.flatMap fun p => ((grouped rows).architectures p).flatMap fun a =>
      ((grouped rows).lookup? p a).getD [] := by
  have hfound (p a : String) : ((grouped rows).lookup? p a).getD [] = targetsOf rows p a := by
    rw [lookup_grouped]
    split
    · rfl
    · next hnone => exact (targetsOf_eq_nil fun r hr he => hnone ⟨r, hr, he⟩).symm
  simp only [targets_grouped, platforms_grouped, architectures_grouped, platformTargets, hfound]

variable {rows}

theorem key_of_mem_targetsOf {p a : String} {t : Target} (ht : t ∈ targetsOf rows p a) :
    t.platform = p ∧ t.arch = a := by
  have hkey := (mem_targetsOf ht).1
  exact ⟨congrArg TargetKey.platform hkey, congrArg TargetKey.arch hkey⟩

theorem platform_of_mem_platformTargets {p : String} {t : Target}
    (ht : t ∈ platformTargets rows p) : t.platform = p := by
  obtain ⟨a, -, ht⟩ := List.mem_flatMap.mp ht
  exact (key_of_mem_targetsOf ht).1

variable (rows)

theorem filter_targets_platform (p : String) :
    (grouped rows).targets.filter (fun t => t.platform = p) = platformTargets rows p := by
  rw [targets_grouped, filter_flatMap_blocks (nodup_eraseDups _)
    fun p _ t ht => platform_of_mem_platformTargets ht]
  split
  · rfl
  · next hout =>
    have hnil : rows.filter (fun r => r.platform = p) = [] := by simpa using hout
    rw [platformTargets, hnil]
    rfl

theorem filter_targets_pair (p a : String) :
    (grouped rows).targets.filter (fun t => t.platform = p ∧ t.arch = a) = targetsOf rows p a := by
  have hboth : (grouped rows).targets.filter (fun t => t.platform = p ∧ t.arch = a) =
      ((grouped rows).targets.filter fun t => t.platform = p).filter fun t => t.arch = a := by
    simp [List.filter_filter, Bool.and_comm]
  rw [hboth, filter_targets_platform, platformTargets, filter_flatMap_blocks (nodup_eraseDups _)
    fun a _ t ht => (key_of_mem_targetsOf ht).2]
  split
  · rfl
  · next hout =>
    refine (targetsOf_eq_nil fun r hr he => hout ?_).symm
    exact List.mem_eraseDups.mpr (List.mem_map.mpr ⟨r, by simp [hr, he.1], he.2⟩)

theorem filter_targetsOf_abi (k : TargetKey) :
    (targetsOf rows k.platform k.arch).filter (fun t => t.abi = k.abi) =
      (grouped rows).targets.filter fun t => t.key = k := by
  obtain ⟨p, a, abi⟩ := k
  simp only [← filter_targets_pair, List.filter_filter, Target.key_eq_iff, Bool.decide_and,
    Bool.and_comm, Bool.and_assoc]

/-- Each key of the table has one build, and there are no others. -/
theorem filter_targets_key (k : TargetKey) :
    (grouped rows).targets.filter (fun t => t.key = k) =
      if ∃ r ∈ rows, r.key = k then [targetOf rows k] else [] := by
  rw [← filter_targetsOf_abi]
  obtain ⟨p, a, abi⟩ := k
  have hmem : abi ∈ (rows.filter fun r => r.platform = p ∧ r.arch = a).map (fun r => r.abi) ↔
      ∃ r ∈ rows, r.key = ⟨p, a, abi⟩ := by
    simp [Triple.key, and_assoc]
  rw [targetsOf, List.map_eq_flatMap,
    filter_flatMap_blocks (nodup_eraseDups _) fun abi _ t ht => List.mem_singleton.mp ht ▸ rfl]
  simp only [List.mem_eraseDups, hmem]

variable {rows}

theorem mem_targets_iff {t : Target} : t ∈ (grouped rows).targets ↔
    (∃ r ∈ rows, r.key = t.key) ∧ t = targetOf rows t.key := by
  have hself : t ∈ (grouped rows).targets ↔
      t ∈ (grouped rows).targets.filter (fun u => u.key = t.key) := by
    simp
  rw [hself, filter_targets_key]
  split
  · next h => simp [h]
  · next h => simp [h]

theorem eq_of_key_eq {t u : Target} (ht : t ∈ (grouped rows).targets)
    (hu : u ∈ (grouped rows).targets) (h : t.key = u.key) : t = u := by
  rw [(mem_targets_iff.mp ht).2, h, ← (mem_targets_iff.mp hu).2]

theorem lookup_eq_ok_iff {p a : String} {targets : List Target} :
    (grouped rows).lookup p a = .ok targets ↔
      (∃ r ∈ rows, r.platform = p ∧ r.arch = a) ∧ targetsOf rows p a = targets := by
  rw [Catalog.lookup, lookup_grouped]
  by_cases h : ∃ r ∈ rows, r.platform = p ∧ r.arch = a
  · rw [if_pos h]
    simp [h]
  · rw [if_neg h]
    simp [h]

end Flat

theorem Target.hashed_eq_iff {t u : Target} : t.hashed = u.hashed ↔ t.key = u.key := by
  have hparts : t.key = u.key ↔ t.platform = u.platform ∧ t.arch = u.arch ∧ t.abi = u.abi :=
    Target.key_eq_iff
  rw [hparts, hashed, hashed]
  cases t.abi <;> cases u.abi <;> simp

/-- The list of all builds is the look-ups of the pairs put together, none of which fails. Each key
of the table has one build in it, which is found under its own pair. Builds of two catalogs are the
same exactly if their keys agree, and a hasher is then fed the same. -/
theorem targets_are_the_lookups (rows : List Triple) :
    let c := Catalog.ofTriples rows
    (∃ found : String → String → List Target,
      (∀ p ∈ c.platforms, ∀ a ∈ c.architectures p, c.lookup p a = .ok (found p a)) ∧
      c.targets = c.platforms.flatMap fun p => (c.architectures p).flatMap fun a => found p a) ∧
    (∀ p a abi, c.targets.countP (fun t => t.platform = p ∧ t.arch = a ∧ t.abi = abi) =
      if ∃ r ∈ rows, r.platform = p ∧ r.arch = a ∧ r.abi = abi then 1 else 0) ∧
    (∀ p a targets, c.lookup p a = .ok targets →
      ∀ t ∈ targets, t.platform = p ∧ t.arch = a) ∧
    ∀ t u : Target,
      (t.sameBuild u = true ↔ t.platform = u.platform ∧ t.arch = u.arch ∧ t.abi = u.abi) ∧
      (t.hashed = u.hashed ↔ t.sameBuild u = true) := by
  dsimp only
  rw [ofTriples_eq_grouped]
  refine ⟨⟨targetsOf rows, fun p _ a ha => ?_, ?_⟩, fun p a abi => ?_, fun p a targets hl => ?_,
    fun t u => ⟨?_, ?_⟩⟩
  · have hrow : ∃ r ∈ rows, r.platform = p ∧ r.arch = a := by
      simpa [architectures_grouped, and_assoc] using ha
    exact lookup_eq_ok_iff.mpr ⟨hrow, rfl⟩
  · simp only [targets_grouped, platforms_grouped, architectures_grouped, platformTargets]
  · have hkey := filter_targets_key rows ⟨p, a, abi⟩
    simp only [Target.key_eq_iff, Triple.key, TargetKey.mk.injEq] at hkey
    rw [List.countP_eq_length_filter, hkey]
    split <;> rfl
  · obtain ⟨-, rfl⟩ := lookup_eq_ok_iff.mp hl
    exact fun t => key_of_mem_targetsOf
  · rw [Target.sameBuild, beq_iff_eq]
    exact Target.key_eq_iff
  · rw [Target.sameBuild, beq_iff_eq]
    exact Target.hashed_eq_iff

end Prebuilt
