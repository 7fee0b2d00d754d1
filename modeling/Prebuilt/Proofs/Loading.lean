import Prebuilt.NativeHost
import Prebuilt.Proofs.Walk

/-! Loading on the host that looks at a disk. However a library is asked for, it comes down to one
artifact: either its canonical path yields a binding, or loading fails and leaves the host as it
was. -/

namespace Prebuilt

namespace Disk

/-- The artifact of the package in a directory, if its manifest points at a file. -/
def mainOf? (disk : Disk) (dir : Path) : Option Path :=
  match Manifest.ofDisk disk dir with
  | .error _ => none
  | .ok manifest =>
    match manifest.mainPath dir with
    | .error _ => none
    | .ok main => if disk.isFile main then some main else none

def artifact? (disk : Disk) (roots : List Path) : Attempt → Option Path
  | .package name => (disk.findPackage name roots).1.bind disk.mainOf?
  | .file path => some path

def isThere (disk : Disk) (roots : List Path) : Attempt → Bool
  | .package name => (disk.findPackage name roots).1.isSome
  | .file path => disk.isFile path

end Disk

namespace NativeHost

def Keyed (host : NativeHost) : Prop := ∀ entry ∈ host.loaded, entry.2.path = entry.1

theorem mem_of_cached {host : NativeHost} {key : Path} {b : Binding}
    (h : host.cached? key = some b) : (key, b) ∈ host.loaded := by
  obtain ⟨before, after, he, -⟩ := List.lookup_eq_some_iff.mp h
  rw [he]
  exact List.mem_append_right before List.mem_cons_self

def keep (host : NativeHost) (key : Path) (library : Library) : NativeHost :=
  { host with
    loaded := (key, ⟨host.opened.length, key, library⟩) :: host.loaded
    opened := host.opened ++ [⟨host.opened.length, key, library⟩] }

/-- The binding for a canonical path and the host afterwards: the binding kept for it if there is
one, otherwise a new one that is kept from then on. -/
inductive Yields (host : NativeHost) (key : Path) : Binding → NativeHost → Prop where
  | kept {binding : Binding} (hc : host.cached? key = some binding) : Yields host key binding host
  | opened {library : Library} (hc : host.cached? key = none)
      (hl : host.disk.library key = some library) :
      Yields host key ⟨host.opened.length, key, library⟩ (host.keep key library)

theorem Yields.path_eq {host after : NativeHost} {key : Path} {b : Binding} (hk : host.Keyed)
    (hy : host.Yields key b after) : b.path = key := by
  cases hy with
  | kept hc => exact hk _ (mem_of_cached hc)
  | opened => rfl

/-- Loading an artifact. It fails only without an artifact, without a canonical path, or where
nothing is kept for that path and the loader refuses it. -/
inductive Loads {ε : Type} (host : NativeHost) (artifact : Option Path) :
    Except ε Binding → NativeHost → Prop where
  | loaded {path key : Path} {binding : Binding} {after : NativeHost} (ha : artifact = some path)
      (hk : host.disk.canonical path = .ok key) (hy : host.Yields key binding after) :
      Loads host artifact (.ok binding) after
  | failed {e : ε} (h : ∀ path key, artifact = some path → host.disk.canonical path = .ok key →
      host.cached? key = none ∧ host.disk.library key = none) :
      Loads host artifact (.error e) host

theorem Loads.mapError {ε ε' : Type} {host after : NativeHost} {artifact : Option Path}
    {answer : Except ε Binding} (h : host.Loads artifact answer after) (f : ε → ε') :
    host.Loads artifact (answer.mapError f) after := by
  cases h with
  | loaded ha hk hy => exact .loaded ha hk hy
  | failed h => exact .failed h

theorem Loads.fails_or_yields {ε : Type} {host after : NativeHost} {artifact : Option Path}
    {answer : Except ε Binding} (h : host.Loads artifact answer after) :
    (answer.toOption = none ∧ after = host) ∨
      ∃ binding key, answer = .ok binding ∧
        (artifact.bind fun path => (host.disk.canonical path).toOption) = some key ∧
        host.Yields key binding after := by
  cases h with
  | loaded ha hk hy => exact .inr ⟨_, _, rfl, by simp [ha, hk, Except.toOption], hy⟩
  | failed => exact .inl ⟨rfl, rfl⟩

theorem loadFile_loads (host : NativeHost) (path : Path) :
    host.Loads (some path) (host.loadFile path).value (host.loadFile path).host := by
  unfold loadFile
  cases hk : host.disk.canonical path with
  | error e =>
    apply Loads.failed
    rintro path key ⟨rfl⟩ hkey
    exact absurd (hk.symm.trans hkey) (by simp)
  | ok key =>
    unfold loadCanonical
    dsimp only
    cases hc : host.cached? key with
    | some binding => exact .loaded rfl hk (.kept hc)
    | none =>
      unfold openLibrary
      cases hl : host.disk.library key with
      | some library => exact .loaded rfl hk (.opened hc hl)
      | none =>
        apply Loads.failed
        rintro path key' ⟨rfl⟩ hkey
        obtain rfl : key = key' := by simpa [hk] using hkey
        exact ⟨hc, hl⟩

theorem loadInstalled_loads (host : NativeHost) (name : PackageName) (dir : Path) :
    host.Loads (host.disk.mainOf? dir) (host.loadInstalled name dir).value
      (host.loadInstalled name dir).host := by
  unfold loadInstalled Disk.mainOf?
  cases Manifest.ofDisk host.disk dir with
  | error e => exact .failed (by simp)
  | ok manifest =>
    dsimp only
    cases manifest.mainPath dir with
    | error e => exact .failed (by simp)
    | ok main =>
      dsimp only
      by_cases hf : host.disk.isFile main = true
      · simp only [hf, if_true]
        exact host.loadFile_loads main
      · simp only [hf]
        exact .failed (by simp)

theorem loadPackage_of_none {host : NativeHost} {name : PackageName} {roots : List Path}
    (h : (host.disk.findPackage name roots).1 = none) :
    (host.loadPackage name roots).value = .error (.notFound name) ∧
      (host.loadPackage name roots).host = host := by
  unfold loadPackage
  split
  · exact ⟨rfl, rfl⟩
  · next hs => simp [hs] at h

theorem loadPackage_of_some {host : NativeHost} {name : PackageName} {roots : List Path}
    {dir : Path} (h : (host.disk.findPackage name roots).1 = some dir) :
    (host.loadPackage name roots).value =
        (host.loadInstalled name dir).value.mapError (fun e => .broken name e.failure) ∧
      (host.loadPackage name roots).host = (host.loadInstalled name dir).host := by
  unfold loadPackage
  split
  · next hs => simp [hs] at h
  · next found looked hs =>
    obtain rfl : found = dir := by simpa [hs] using h
    exact ⟨rfl, rfl⟩

theorem loadPackage_loads (host : NativeHost) (name : PackageName) (roots : List Path) :
    host.Loads (host.disk.artifact? roots (.package name)) (host.loadPackage name roots).value
      (host.loadPackage name roots).host := by
  cases hd : (host.disk.findPackage name roots).1 with
  | none =>
    rw [(loadPackage_of_none hd).1, (loadPackage_of_none hd).2]
    exact .failed (by simp [Disk.artifact?, hd])
  | some dir =>
    rw [(loadPackage_of_some hd).1, (loadPackage_of_some hd).2, Disk.artifact?, hd, Option.bind_some]
    exact (host.loadInstalled_loads name dir).mapError _

theorem probe_absent {host : NativeHost} {roots : List Path} {a : Attempt}
    (h : host.disk.isThere roots a = false) (context : List String) :
    ((a.probe roots).run context host).value = .absent ∧
      ((a.probe roots).run context host).host = host := by
  cases a with
  | package name =>
    have hn : (host.disk.findPackage name roots).1 = none := by simpa [Disk.isThere] using h
    rw [run_probe_package]
    change Presence.ofPackage (host.loadPackage name roots).value = _ ∧
      (host.loadPackage name roots).host = _
    rw [(loadPackage_of_none hn).1, (loadPackage_of_none hn).2]
    exact ⟨rfl, rfl⟩
  | file path =>
    rw [run_probe_file_absent h]
    exact ⟨rfl, rfl⟩

theorem probe_present {host : NativeHost} {roots : List Path} {a : Attempt}
    (h : host.disk.isThere roots a = true) (context : List String) :
    ∃ answer : Except Failure Binding,
      ((a.probe roots).run context host).value = .ofLoad answer ∧
      host.Loads (host.disk.artifact? roots a) answer ((a.probe roots).run context host).host := by
  cases a with
  | package name =>
    obtain ⟨dir, hdir⟩ := Option.isSome_iff_exists.mp h
    have hl := host.loadInstalled_loads name dir
    rw [run_probe_package]
    change ∃ answer, Presence.ofPackage (host.loadPackage name roots).value = .ofLoad answer ∧
      host.Loads _ answer (host.loadPackage name roots).host
    rw [(loadPackage_of_some hdir).1, (loadPackage_of_some hdir).2]
    refine ⟨(host.loadInstalled name dir).value.mapError fun e =>
      (PackageError.broken name e.failure).failure, ?_, ?_⟩
    · cases (host.loadInstalled name dir).value <;> rfl
    · rw [Disk.artifact?, hdir, Option.bind_some]
      exact hl.mapError _
  | file path =>
    rw [run_probe_file_present h]
    exact ⟨_, rfl, (host.loadFile_loads path).mapError _⟩

section Walk

variable {host : NativeHost} {roots : List Path} {before : List Candidate}

theorem walk_all_absent (hb : ∀ c ∈ before, host.disk.isThere roots c.attempt = false)
    (context : List String) :
    ((walk roots [] before).run context host).value =
        .error (.bindingNotFound (before.map fun c => c.attempt.text)) ∧
      ((walk roots [] before).run context host).host = host := by
  have hh := run_walk_append (fun c hc => probe_absent (hb c hc) context) [] []
  rw [List.append_nil, run_walk_nil] at hh
  rw [hh]
  exact ⟨rfl, rfl⟩

theorem walk_first_present (hb : ∀ c ∈ before, host.disk.isThere roots c.attempt = false)
    {c : Candidate} (hc : host.disk.isThere roots c.attempt = true) (after : List Candidate)
    (context : List String) :
    let o := (walk roots [] (before ++ c :: after)).run context host
    ∃ answer : Except Failure Binding, o.value = c.settle answer ∧
      host.Loads (host.disk.artifact? roots c.attempt) answer o.host := by
  obtain ⟨answer, hv, hl⟩ := probe_present hc context
  have hh := run_walk_append (fun d hd => probe_absent (hb d hd) context) [] (c :: after)
  rw [run_walk_present hv] at hh
  dsimp only
  rw [hh]
  exact ⟨answer, rfl, hl⟩

end Walk

section Resolve

variable {host : NativeHost} {s : Search} {catalog : Catalog} {candidates : List Candidate}

theorem resolve_all_absent
    (hp : s.plan catalog (s.pairOn host).1 (s.pairOn host).2 = .ok candidates)
    (ha : ∀ c ∈ candidates, host.disk.isThere [s.dir] c.attempt = false) (context : List String) :
    let o := (s.resolve catalog).run context host
    o.value = .error (.bindingNotFound (candidates.map fun c => c.attempt.text)) ∧
      o.host = host := by
  dsimp only
  rw [run_resolve_of_ok context host hp]
  exact walk_all_absent ha _

theorem resolve_first_present
    (hp : s.plan catalog (s.pairOn host).1 (s.pairOn host).2 = .ok candidates)
    {i : Nat} {c : Candidate} (hi : candidates[i]? = some c)
    (hc : host.disk.isThere [s.dir] c.attempt = true)
    (hb : ∀ d ∈ candidates.take i, host.disk.isThere [s.dir] d.attempt = false)
    (context : List String) :
    let o := (s.resolve catalog).run context host
    ∃ answer : Except Failure Binding, o.value = c.settle answer ∧
      host.Loads (host.disk.artifact? [s.dir] c.attempt) answer o.host := by
  have hw := walk_first_present hb hc (candidates.drop (i + 1))
    (context ++ [Search.purpose (s.pairOn host).1 (s.pairOn host).2])
  rw [← (split_at_index hi).1] at hw
  dsimp only
  rw [run_resolve_of_ok context host hp]
  exact hw

/-- Among the candidates none is there, or one is there and none before it. -/
theorem all_absent_or_first_present (disk : Disk) (roots : List Path)
    (candidates : List Candidate) :
    (∀ c ∈ candidates, disk.isThere roots c.attempt = false) ∨
      ∃ i c, candidates[i]? = some c ∧ disk.isThere roots c.attempt = true ∧
        ∀ d ∈ candidates.take i, disk.isThere roots d.attempt = false := by
  cases hf : candidates.find? fun c => disk.isThere roots c.attempt with
  | none => exact .inl (by simpa using hf)
  | some c =>
    obtain ⟨hc, before, after, rfl, hb⟩ := List.find?_eq_some_iff_append.mp hf
    refine .inr ⟨before.length, c, by simp, hc, fun d hd => ?_⟩
    rw [List.take_left] at hd
    simpa using hb d hd

end Resolve

end NativeHost

end Prebuilt
