import Prebuilt.Proofs.Loading

/-! What a search on a disk selects. The order of the catalog comes first: among packages a build
that is preferred wins from the farthest directory over any other from the nearest. -/

namespace Prebuilt

namespace NativeHost

/-- The search ends at one attempt. Either it answers with the binding for the canonical path of the
attempt's artifact, or with an error that names the attempt. It is an error only if there is no
such path or there is nothing kept for it and the loader refuses it. -/
def SettlesOn (host : NativeHost) (t : Target) (a : Attempt) (artifact : Option Path)
    (o : Outcome NativeHost (Except ResolveError (Resolved Binding))) : Prop :=
  (∃ path key binding, artifact = some path ∧ host.disk.canonical path = .ok key ∧
    host.Yields key binding o.host ∧ (host.Keyed → binding.path = key) ∧
    o.value = .ok ⟨binding, t, a⟩) ∨
  (∃ cause, o.value = .error (.resolution a.text cause)) ∧ o.host = host ∧
    ∀ path key, artifact = some path → host.disk.canonical path = .ok key →
      host.cached? key = none ∧ host.disk.library key = none

theorem Loads.settlesOn {host : NativeHost} {artifact : Option Path} {c : Candidate}
    {answer : Except Failure Binding}
    {o : Outcome NativeHost (Except ResolveError (Resolved Binding))}
    (hl : host.Loads artifact answer o.host) (hv : o.value = c.settle answer) :
    host.SettlesOn c.target c.attempt artifact o := by
  generalize ho : o.host = after at hl
  cases hl with
  | loaded ha hk hy =>
    exact .inl ⟨_, _, _, ha, hk, ho ▸ hy, fun hkeyed => hy.path_eq hkeyed, hv⟩
  | failed h => exact .inr ⟨⟨_, hv⟩, ho, h⟩

section Resolve

variable {host : NativeHost} {s : Search} {catalog : Catalog} {candidates : List Candidate}

theorem settlesOn_first_present
    (hp : s.plan catalog (s.pairOn host).1 (s.pairOn host).2 = .ok candidates)
    {i : Nat} {c : Candidate} (hi : candidates[i]? = some c)
    (hc : host.disk.isThere [s.dir] c.attempt = true)
    (hb : ∀ d ∈ candidates.take i, host.disk.isThere [s.dir] d.attempt = false)
    (context : List String) :
    host.SettlesOn c.target c.attempt (host.disk.artifact? [s.dir] c.attempt)
      ((s.resolve catalog).run context host) := by
  obtain ⟨answer, hv, hl⟩ := resolve_first_present hp hi hc hb context
  exact hl.settlesOn hv

theorem resolve_not_found_iff
    (hp : s.plan catalog (s.pairOn host).1 (s.pairOn host).2 = .ok candidates)
    (context : List String) (attempted : List String) :
    ((s.resolve catalog).run context host).value = .error (.bindingNotFound attempted) ↔
      attempted = candidates.map (fun c => c.attempt.text) ∧
      ∀ c ∈ candidates, host.disk.isThere [s.dir] c.attempt = false := by
  rcases all_absent_or_first_present host.disk [s.dir] candidates with ha | ⟨i, c, hi, hc, hb⟩
  · rw [(resolve_all_absent hp ha context).1]
    constructor
    · intro he
      have hl : candidates.map (fun c => c.attempt.text) = attempted := by simpa using he
      exact ⟨hl.symm, ha⟩
    · rintro ⟨rfl, -⟩
      rfl
  · constructor
    · intro he
      rcases settlesOn_first_present hp hi hc hb context with ⟨_, _, _, -, -, -, -, hv⟩ | ⟨⟨_, hv⟩, -⟩
      · simp [he] at hv
      · simp [he] at hv
    · rintro ⟨-, ha⟩
      have hh := ha c (List.mem_of_getElem? hi)
      simp [hc] at hh

end Resolve

/-- Build number `i` is installed in directory number `j` of those that its package may be in. -/
def InstalledAt (disk : Disk) (root : Path) (family : PackageName) (targets : List Target)
    (i j : Nat) (t : Target) (dir : Path) : Prop :=
  targets[i]? = some t ∧
  (root.ancestors.map fun above =>
    (family.forTarget t.shortId).below (above.join modulesDir))[j]? = some dir ∧
  disk.isFile (dir.join manifestName) = true

section Package

variable {disk : Disk} {root : Path} {family : PackageName} {targets : List Target}

theorem isThere_package_eq_false {name : PackageName} :
    disk.isThere [root] (.package name) = false ↔
      ∀ dir ∈ name.places [root], disk.hasManifest dir = false := by
  simp [Disk.isThere, Disk.findPackage, Disk.firstInstalled_fst]

theorem package_absent_iff {i : Nat} {t : Target} (hi : targets[i]? = some t) :
    disk.isThere [root] (.package (family.forTarget t.shortId)) = false ↔
      ∀ j dir, ¬ InstalledAt disk root family targets i j t dir := by
  rw [isThere_package_eq_false, PackageName.places_singleton]
  constructor
  · intro h j dir ⟨_, hj, hm⟩
    have hh := h dir (List.mem_of_getElem? hj)
    simp [Disk.hasManifest, hm] at hh
  · intro h dir hd
    obtain ⟨j, hj⟩ := List.getElem?_of_mem hd
    apply Bool.eq_false_iff.mpr
    intro hm
    exact h j dir ⟨hi, hj, hm⟩

theorem packages_absent_iff :
    (∀ t ∈ targets, disk.isThere [root] (.package (family.forTarget t.shortId)) = false) ↔
      ∀ i j t dir, ¬ InstalledAt disk root family targets i j t dir := by
  constructor
  · intro h i j t dir hat
    exact (package_absent_iff hat.1).mp (h t (List.mem_of_getElem? hat.1)) j dir hat
  · intro h t ht
    obtain ⟨i, hi⟩ := List.getElem?_of_mem ht
    exact (package_absent_iff hi).mpr (h i · t ·)

variable {i j : Nat} {t : Target} {dir : Path}

theorem packages_absent_before (hleast : ∀ i' j' t' dir',
      InstalledAt disk root family targets i' j' t' dir' → i < i' ∨ i = i' ∧ j ≤ j') :
    ∀ u ∈ targets.take i, disk.isThere [root] (.package (family.forTarget u.shortId)) = false := by
  intro u hu
  obtain ⟨k, hk, hget⟩ := exists_lt_of_mem_take hu
  refine (package_absent_iff hget).mpr fun l place hat => ?_
  have := hleast k l u place hat
  omega

theorem findPackage_of_least (hat : InstalledAt disk root family targets i j t dir)
    (hleast : ∀ i' j' t' dir',
      InstalledAt disk root family targets i' j' t' dir' → i < i' ∨ i = i' ∧ j ≤ j') :
    (disk.findPackage (family.forTarget t.shortId) [root]).1 = some dir := by
  obtain ⟨hi, hj, hm⟩ := hat
  rw [Disk.findPackage, Disk.firstInstalled_fst, PackageName.places_singleton,
    List.find?_eq_some_iff_append]
  refine ⟨hm, _, _, (split_at_index hj).1, fun nearer hn => ?_⟩
  obtain ⟨l, hl, hget⟩ := exists_lt_of_mem_take hn
  rw [Bool.not_eq_true']
  apply Bool.eq_false_iff.mpr
  intro hd
  have := hleast i l t nearer ⟨hi, hget, hd⟩
  omega

end Package

/-- Without a family of packages the first build whose file is there is selected. With one it is the
first build that is installed at all, in the nearest directory that holds it, so the order of the
catalog comes before nearness. Only when nothing is there is no binding found. -/
theorem selects_first_build_then_nearest (host : NativeHost) (s : Search) (catalog : Catalog)
    (context : List String) :
    let o := (s.resolve catalog).run context host
    let pair := s.target.getD (hostPlatform, hostArch)
    ∀ targets, catalog.lookup? pair.1 pair.2 = some targets →
      (s.family = none →
        let path := fun t => s.dir.join ⟨s.artifact pair.1 t⟩
        (∀ attempted, o.value = .error (.bindingNotFound attempted) ↔
          attempted = targets.map (fun t => (path t).text) ∧
          ∀ t ∈ targets, host.disk.isFile (path t) = false) ∧
        ∀ i t, targets[i]? = some t → host.disk.isFile (path t) = true →
          (∀ u ∈ targets.take i, host.disk.isFile (path u) = false) →
          host.SettlesOn t (.file (path t)) (some (path t)) o) ∧
      ∀ family, s.family = some family →
        let name := fun t : Target => family.forTarget t.shortId
        let installed := InstalledAt host.disk s.dir family targets
        (∀ attempted, o.value = .error (.bindingNotFound attempted) ↔
          attempted = targets.map (fun t => (name t).text) ∧
          ∀ i j t dir, ¬ installed i j t dir) ∧
        ∀ i j t dir, installed i j t dir →
          (∀ i' j' t' dir', installed i' j' t' dir' → i < i' ∨ i = i' ∧ j ≤ j') →
          host.SettlesOn t (.package (name t)) (host.disk.mainOf? dir) o := by
  intro o pair targets ht
  have hp : s.plan catalog (s.pairOn host).1 (s.pairOn host).2 =
      .ok (targets.map fun t => ⟨t, s.attempt pair.1 t⟩) := s.plan_of_some ht
  refine ⟨fun hf => ?_, fun family hf => ?_⟩
  · intro path
    have ha (t : Target) : s.attempt pair.1 t = .file (path t) := by rw [Search.attempt, hf]
    simp only [ha] at hp
    refine ⟨fun attempted => ?_, fun i t hi hthere hbefore => ?_⟩
    · rw [resolve_not_found_iff hp context attempted]
      simp [Disk.isThere, Attempt.text, Function.comp_def]
    · refine settlesOn_first_present hp (i := i) (c := ⟨t, .file (path t)⟩) (by simp [hi]) hthere ?_
        context
      rw [← List.map_take]
      exact List.forall_mem_map.mpr hbefore
  · intro name installed
    have ha (t : Target) : s.attempt pair.1 t = .package (name t) := by rw [Search.attempt, hf]
    simp only [ha] at hp
    refine ⟨fun attempted => ?_, fun i j t dir hat hleast => ?_⟩
    · rw [resolve_not_found_iff hp context attempted, List.map_map, List.forall_mem_map,
        packages_absent_iff]
      rfl
    · have hfound := findPackage_of_least hat hleast
      have hthere : host.disk.isThere [s.dir] (.package (name t)) = true := by
        rw [Disk.isThere, hfound, Option.isSome_some]
      have hartifact : host.disk.artifact? [s.dir] (.package (name t)) = host.disk.mainOf? dir := by
        rw [Disk.artifact?, hfound, Option.bind_some]
      rw [← hartifact]
      refine settlesOn_first_present hp (i := i) (c := ⟨t, .package (name t)⟩) (by simp [hat.1])
        hthere ?_ context
      rw [← List.map_take]
      exact List.forall_mem_map.mpr (packages_absent_before hleast)

end NativeHost

end Prebuilt
