import Mathlib.Data.List.Induction
import Mathlib.Data.List.Nodup
import Prebuilt.Catalog

/-! A catalog built row by row is its table grouped: by platform, in each platform by architecture,
in each pair by interface, and under each of these the raw names, all of them in order of first
appearance and each kept once. -/

namespace Prebuilt

section FirstAppearance

variable {κ α : Type} [BEq κ] [LawfulBEq κ]

theorem eraseDups_concat_of_mem {l : List κ} {k : κ} (h : k ∈ l) :
    (l ++ [k]).eraseDups = l.eraseDups := by
  simp [List.eraseDups_append, List.removeAll, h]

theorem eraseDups_concat_of_notMem {l : List κ} {k : κ} (h : k ∉ l) :
    (l ++ [k]).eraseDups = l.eraseDups ++ [k] := by
  simp [List.eraseDups_append, List.removeAll, List.eraseDups_cons, h]

theorem nodup_eraseDups (l : List κ) : l.eraseDups.Nodup := by
  induction l using List.reverseRecOn with
  | nil => simp
  | append_singleton l k ih =>
    by_cases h : k ∈ l
    · rw [eraseDups_concat_of_mem h]
      exact ih
    · rw [eraseDups_concat_of_notMem h]
      refine List.nodup_append.mpr ⟨ih, List.nodup_singleton k, fun x hx y hy he => h ?_⟩
      rwa [← List.mem_singleton.mp hy, ← he, ← List.mem_eraseDups]

theorem eraseDups_ne_nil {l : List κ} (h : l ≠ []) : l.eraseDups ≠ [] := by
  obtain ⟨k, hk⟩ := List.exists_mem_of_ne_nil l h
  exact List.ne_nil_of_mem (List.mem_eraseDups.mpr hk)

theorem changeOrAdd_map_of_mem {ks : List κ} {k : κ} {f g : κ → α} {found : α → Bool}
    {change : α → α} {fresh : α} (hnd : ks.Nodup) (hk : k ∈ ks)
    (hfound : ∀ x, found (f x) = (x == k)) (hother : ∀ x, x ≠ k → g x = f x)
    (hchange : g k = change (f k)) :
    changeOrAdd found change fresh (ks.map f) = ks.map g := by
  induction ks with
  | nil => simp at hk
  | cons x ks ih =>
    obtain ⟨hx, hnd⟩ := List.nodup_cons.mp hnd
    by_cases he : x = k
    · subst he
      have hrest : ks.map f = ks.map g :=
        List.map_congr_left fun y hy => (hother y fun he => hx (he ▸ hy)).symm
      simp [changeOrAdd, hfound, hchange, hrest]
    · have hmem : k ∈ ks := (List.mem_cons.mp hk).resolve_left (Ne.symm he)
      simp [changeOrAdd, hfound, he, hother x he, ih hnd hmem]

/-- One step of grouping: keys stay in order of first appearance, and only the entry of the key at
hand changes or is added. -/
theorem changeOrAdd_eraseDups {l : List κ} {k : κ} {f g : κ → α} {found : α → Bool}
    {change : α → α} {fresh : α} (hfound : ∀ x, found (f x) = (x == k))
    (hother : ∀ x, x ≠ k → g x = f x) (hchange : k ∈ l → g k = change (f k))
    (hfresh : k ∉ l → g k = fresh) :
    changeOrAdd found change fresh (l.eraseDups.map f) = (l ++ [k]).eraseDups.map g := by
  by_cases hk : k ∈ l
  · rw [eraseDups_concat_of_mem hk]
    exact changeOrAdd_map_of_mem (nodup_eraseDups l) (List.mem_eraseDups.mpr hk) hfound hother
      (hchange hk)
  · have hne : ∀ x ∈ l.eraseDups, x ≠ k := fun x hx he => hk (he ▸ List.mem_eraseDups.mp hx)
    rw [eraseDups_concat_of_notMem hk, List.map_append, List.map_singleton, hfresh hk,
      List.map_congr_left fun x hx => hother x (hne x hx)]
    apply changeOrAdd_of_absent
    intro e he
    obtain ⟨x, hx, rfl⟩ := List.mem_map.mp he
    rw [hfound]
    exact beq_false_of_ne (hne x hx)

theorem find_map_eraseDups {l : List κ} {k : κ} {f : κ → α} {found : α → Bool}
    (hfound : ∀ x, found (f x) = (x == k)) :
    (l.eraseDups.map f).find? found = if k ∈ l then some (f k) else none := by
  have hcomp : found ∘ f = fun x => x == k := funext hfound
  rw [List.find?_map, hcomp]
  split
  · next hk =>
    have hsome : (l.eraseDups.find? fun x => x == k).isSome :=
      List.find?_isSome.mpr ⟨k, List.mem_eraseDups.mpr hk, beq_self_eq_true k⟩
    obtain ⟨x, hx⟩ := Option.isSome_iff_exists.mp hsome
    have he := List.find?_some hx
    rw [hx, Option.map_some, eq_of_beq he]
  · next hk =>
    rw [Option.map_eq_none_iff, List.find?_eq_none]
    intro x hx he
    exact hk (eq_of_beq he ▸ List.mem_eraseDups.mp hx)

end FirstAppearance

/-! The groups of a table. -/

def rawsOf (rows : List Triple) (k : TargetKey) : List String :=
  ((rows.filter fun r => r.key = k).map fun r => r.raw).eraseDups

/-- The build of a key with all its names; it is only used of keys in the table. -/
def targetOf (rows : List Triple) (k : TargetKey) : Target :=
  ⟨k, (rawsOf rows k).headD "", (rawsOf rows k).tail⟩

def targetsOf (rows : List Triple) (platform arch : String) : List Target :=
  ((rows.filter fun r => r.platform = platform ∧ r.arch = arch).map fun r => r.abi).eraseDups.map
    fun abi => targetOf rows ⟨platform, arch, abi⟩

def archsOf (rows : List Triple) (platform : String) : List ArchEntry :=
  ((rows.filter fun r => r.platform = platform).map fun r => r.arch).eraseDups.map
    fun arch => ⟨arch, targetsOf rows platform arch⟩

def grouped (rows : List Triple) : Catalog :=
  ⟨(rows.map fun r => r.platform).eraseDups.map fun platform => ⟨platform, archsOf rows platform⟩⟩

section Step

variable {rows : List Triple} {row : Triple}

theorem rawTriples_targetOf {k : TargetKey} (h : ∃ r ∈ rows, r.key = k) :
    (targetOf rows k).rawTriples = rawsOf rows k := by
  have hne : rawsOf rows k ≠ [] := by
    obtain ⟨r, hr, hk⟩ := h
    apply eraseDups_ne_nil
    exact List.ne_nil_of_mem (List.mem_map.mpr ⟨r, by simp [hr, hk], rfl⟩)
  rw [Target.rawTriples, targetOf]
  cases hl : rawsOf rows k with
  | nil => exact absurd hl hne
  | cons raw raws => rfl

theorem targetOf_concat_of_ne {k : TargetKey} (h : k ≠ row.key) :
    targetOf (rows ++ [row]) k = targetOf rows k := by
  simp [targetOf, rawsOf, List.filter_append, Ne.symm h]

theorem targetOf_concat_fresh (h : ∀ r ∈ rows, r.key ≠ row.key) :
    targetOf (rows ++ [row]) row.key = .ofTriple row := by
  have hnil : rows.filter (fun r => r.key = row.key) = [] := by simpa using h
  simp [targetOf, rawsOf, List.filter_append, hnil, List.eraseDups_cons, Target.ofTriple]

theorem targetOf_concat_known (h : ∃ r ∈ rows, r.key = row.key) :
    targetOf (rows ++ [row]) row.key = (targetOf rows row.key).addRaw row.raw := by
  have hraws : rawsOf (rows ++ [row]) row.key =
      (((rows.filter fun r => r.key = row.key).map fun r => r.raw) ++ [row.raw]).eraseDups := by
    simp [rawsOf, List.filter_append]
  have hold := rawTriples_targetOf h
  rw [Target.addRaw, hold]
  split
  · next hmem =>
    rw [rawsOf, List.mem_eraseDups] at hmem
    rw [targetOf, hraws, eraseDups_concat_of_mem hmem]
    rfl
  · next hmem =>
    rw [rawsOf, List.mem_eraseDups] at hmem
    rw [targetOf, hraws, eraseDups_concat_of_notMem hmem]
    change Target.mk row.key ((rawsOf rows row.key ++ [row.raw]).headD "")
      (rawsOf rows row.key ++ [row.raw]).tail = _
    rw [← hold]
    rfl

theorem targetsOf_concat_of_ne {platform arch : String}
    (h : ¬(row.platform = platform ∧ row.arch = arch)) :
    targetsOf (rows ++ [row]) platform arch = targetsOf rows platform arch := by
  have hkey (abi : Option String) :
      targetOf (rows ++ [row]) ⟨platform, arch, abi⟩ = targetOf rows ⟨platform, arch, abi⟩ := by
    apply targetOf_concat_of_ne
    intro he
    simp only [Triple.key, TargetKey.mk.injEq] at he
    exact h ⟨he.1.symm, he.2.1.symm⟩
  simp [targetsOf, List.filter_append, h, hkey]

theorem targetsOf_concat_self :
    targetsOf (rows ++ [row]) row.platform row.arch =
      addTarget row (targetsOf rows row.platform row.arch) := by
  have hmem : row.abi ∈ (rows.filter fun r => r.platform = row.platform ∧ r.arch = row.arch).map
      (fun r => r.abi) ↔ ∃ r ∈ rows, r.key = row.key := by
    simp [Triple.key, and_assoc]
  have habis : ((rows ++ [row]).filter fun r => r.platform = row.platform ∧ r.arch = row.arch).map
      (fun r => r.abi) =
      (rows.filter fun r => r.platform = row.platform ∧ r.arch = row.arch).map (fun r => r.abi) ++
        [row.abi] := by
    simp [List.filter_append]
  rw [targetsOf, habis, addTarget, targetsOf]
  refine (changeOrAdd_eraseDups (fun abi => rfl) (fun abi hne => ?_) (fun hin => ?_)
    fun hout => ?_).symm
  · apply targetOf_concat_of_ne
    intro he
    simp only [Triple.key, TargetKey.mk.injEq] at he
    exact hne he.2.2
  · exact targetOf_concat_known (hmem.mp hin)
  · exact targetOf_concat_fresh fun r hr he => hout (hmem.mpr ⟨r, hr, he⟩)

theorem archsOf_concat_of_ne {platform : String} (h : row.platform ≠ platform) :
    archsOf (rows ++ [row]) platform = archsOf rows platform := by
  have htargets (arch : String) :
      targetsOf (rows ++ [row]) platform arch = targetsOf rows platform arch :=
    targetsOf_concat_of_ne fun he => h he.1
  simp [archsOf, List.filter_append, h, htargets]

theorem targetsOf_eq_nil {platform arch : String}
    (h : ∀ r ∈ rows, ¬(r.platform = platform ∧ r.arch = arch)) :
    targetsOf rows platform arch = [] := by
  have hnil : rows.filter (fun r => r.platform = platform ∧ r.arch = arch) = [] := by simpa using h
  rw [targetsOf, hnil]
  rfl

theorem archsOf_eq_nil {platform : String} (h : ∀ r ∈ rows, r.platform ≠ platform) :
    archsOf rows platform = [] := by
  have hnil : rows.filter (fun r => r.platform = platform) = [] := by simpa using h
  simp [archsOf, hnil]

theorem archsOf_concat_self :
    archsOf (rows ++ [row]) row.platform = addArch row (archsOf rows row.platform) := by
  have harchs : ((rows ++ [row]).filter fun r => r.platform = row.platform).map
      (fun r => r.arch) =
      (rows.filter fun r => r.platform = row.platform).map (fun r => r.arch) ++ [row.arch] := by
    simp [List.filter_append]
  rw [archsOf, harchs, addArch, archsOf]
  refine (changeOrAdd_eraseDups (fun arch => rfl) (fun arch hne => ?_) (fun _ => ?_)
    fun hout => ?_).symm
  · rw [targetsOf_concat_of_ne fun he => hne he.2.symm]
  · rw [targetsOf_concat_self]
  · have hnone : ∀ r ∈ rows, ¬(r.platform = row.platform ∧ r.arch = row.arch) := by
      intro r hr he
      exact hout (List.mem_map.mpr ⟨r, by simp [hr, he.1], he.2⟩)
    rw [targetsOf_concat_self, targetsOf_eq_nil hnone]
    rfl

theorem grouped_concat (rows : List Triple) (row : Triple) :
    grouped (rows ++ [row]) = (grouped rows).add row := by
  rw [grouped, Catalog.add, addPlatform, List.map_append, List.map_singleton, grouped]
  refine congrArg Catalog.mk (changeOrAdd_eraseDups (fun platform => rfl) (fun platform hne => ?_)
    (fun _ => ?_) fun hout => ?_).symm
  · rw [archsOf_concat_of_ne (Ne.symm hne)]
  · rw [archsOf_concat_self]
  · have hnone : ∀ r ∈ rows, r.platform ≠ row.platform := by
      intro r hr he
      exact hout (List.mem_map.mpr ⟨r, hr, he⟩)
    rw [archsOf_concat_self, archsOf_eq_nil hnone]
    rfl

end Step

/-- Adding the rows one by one gives the groups of the whole table. -/
theorem ofTriples_eq_grouped (rows : List Triple) : Catalog.ofTriples rows = grouped rows := by
  induction rows using List.reverseRecOn with
  | nil => rfl
  | append_singleton rows row ih =>
    rw [grouped_concat, ← ih, Catalog.ofTriples, Catalog.ofTriples, List.foldl_concat]

section Query

variable (rows : List Triple) (platform arch : String)

theorem platforms_grouped :
    (grouped rows).platforms = (rows.map fun r => r.platform).eraseDups := by
  simp [Catalog.platforms, grouped, Function.comp_def]

theorem archEntries_grouped : (grouped rows).archEntries platform = archsOf rows platform := by
  rw [Catalog.archEntries, grouped, find_map_eraseDups fun p => rfl]
  split
  · rfl
  · next hout =>
    have hnone : ∀ r ∈ rows, r.platform ≠ platform := by simpa using hout
    rw [archsOf_eq_nil hnone]
    rfl

theorem architectures_grouped : (grouped rows).architectures platform =
    ((rows.filter fun r => r.platform = platform).map fun r => r.arch).eraseDups := by
  simp [Catalog.architectures, archEntries_grouped, archsOf, Function.comp_def]

theorem lookup_grouped : (grouped rows).lookup? platform arch =
    if ∃ r ∈ rows, r.platform = platform ∧ r.arch = arch then some (targetsOf rows platform arch)
    else none := by
  have hmem : arch ∈ (rows.filter fun r => r.platform = platform).map (fun r => r.arch) ↔
      ∃ r ∈ rows, r.platform = platform ∧ r.arch = arch := by
    simp [and_assoc]
  rw [Catalog.lookup?, archEntries_grouped, archsOf, find_map_eraseDups fun a => rfl]
  simp only [hmem]
  split <;> rfl

end Query

theorem mem_targetsOf {rows : List Triple} {platform arch : String} {t : Target}
    (ht : t ∈ targetsOf rows platform arch) :
    t.key = ⟨platform, arch, t.abi⟩ ∧ t.rawTriples = rawsOf rows t.key := by
  obtain ⟨abi, habi, rfl⟩ := List.mem_map.mp ht
  rw [List.mem_eraseDups, List.mem_map] at habi
  obtain ⟨r, hr, rfl⟩ := habi
  simp only [List.mem_filter, decide_eq_true_eq] at hr
  refine ⟨rfl, rawTriples_targetOf ⟨r, hr.1, ?_⟩⟩
  rw [Triple.key, hr.2.1, hr.2.2]

/-- The catalog of a table: platforms, architectures and builds in order of first appearance, a
build for each interface of a listed pair with the raw names of its rows, each name once, and an
error for every other pair. -/
theorem catalog_groups_rows (rows : List Triple) :
    let c := Catalog.ofTriples rows
    c.platforms = (rows.map fun r => r.platform).eraseDups ∧
    (∀ p, c.architectures p =
      ((rows.filter fun r => r.platform = p).map fun r => r.arch).eraseDups) ∧
    (∀ p a, (∀ r ∈ rows, ¬(r.platform = p ∧ r.arch = a)) →
      c.lookup p a = .error (.unsupportedTarget p a)) ∧
    ∀ p a, (∃ r ∈ rows, r.platform = p ∧ r.arch = a) →
      ∃ targets, c.lookup p a = .ok targets ∧ targets ≠ [] ∧
        targets.map (fun t => t.abi) =
          ((rows.filter fun r => r.platform = p ∧ r.arch = a).map fun r => r.abi).eraseDups ∧
        ∀ t ∈ targets, t.platform = p ∧ t.arch = a ∧
          (t.abi = none → t.shortId = p ++ "-" ++ a) ∧
          (∀ abi, t.abi = some abi → t.shortId = p ++ "-" ++ a ++ "-" ++ abi) ∧
          t.rawTriples = ((rows.filter fun r => r.platform = p ∧ r.arch = a ∧ r.abi = t.abi).map
            fun r => r.raw).eraseDups ∧
          t.rawTriples ≠ [] ∧ t.rawTriples[0]? = some t.raw := by
  dsimp only
  rw [ofTriples_eq_grouped]
  refine ⟨platforms_grouped rows, architectures_grouped rows, fun p a hnone => ?_,
    fun p a hsome => ?_⟩
  · have hno : ¬∃ r ∈ rows, r.platform = p ∧ r.arch = a := fun ⟨r, hr, he⟩ => hnone r hr he
    rw [Catalog.lookup, lookup_grouped, if_neg hno]
  · have habis : (targetsOf rows p a).map (fun t => t.abi) =
        ((rows.filter fun r => r.platform = p ∧ r.arch = a).map fun r => r.abi).eraseDups := by
      rw [targetsOf, List.map_map]
      exact List.map_id _
    refine ⟨targetsOf rows p a, ?_, ?_, habis, fun t ht => ?_⟩
    · rw [Catalog.lookup, lookup_grouped, if_pos hsome]
    · obtain ⟨r, hr, he⟩ := hsome
      intro hnil
      rw [hnil, List.map_nil, eq_comm] at habis
      exact eraseDups_ne_nil
        (List.ne_nil_of_mem (List.mem_map.mpr ⟨r, by simp [hr, he], rfl⟩)) habis
    · obtain ⟨hkey, hraws⟩ := mem_targetsOf ht
      refine ⟨congrArg TargetKey.platform hkey, congrArg TargetKey.arch hkey, fun hn => ?_,
        fun abi hs => ?_, ?_, by simp [Target.rawTriples], rfl⟩
      · rw [Target.shortId, hkey, hn]
        rfl
      · rw [Target.shortId, hkey, hs]
        rfl
      · rw [hraws, rawsOf, hkey]
        simp [Triple.key]

example : (Catalog.ofTriples [⟨"linux", "arm", some "gnueabihf", "armv7"⟩,
    ⟨"linux", "x64", none, "x86_64"⟩, ⟨"linux", "arm", some "gnueabihf", "armv6"⟩]).targets.map
      (fun t => t.rawTriples) = [["armv7", "armv6"], ["x86_64"]] := by
  decide

end Prebuilt
