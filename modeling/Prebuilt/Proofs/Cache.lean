import Mathlib.Data.List.Nodup
import Prebuilt.Proofs.Loading

/-! What one host keeps over a run of operations, with the disk changed at will between them.
Bindings are told apart exactly as the canonical paths were that they were loaded from, and the
loader opens each canonical path at most once. -/

namespace Prebuilt

inductive Operation where
  | loadFile (path : Path)
  | loadPackage (name : PackageName) (roots : List Path)
  | resolve (context : List String) (search : Search) (catalog : Catalog)

namespace Operation

def perform (host : NativeHost) : Operation → Option (Attempt × Binding) × NativeHost
  | loadFile path =>
    let reply := host.loadFile path
    (reply.value.toOption.map fun b => (.file path, b), reply.host)
  | loadPackage name roots =>
    let reply := host.loadPackage name roots
    (reply.value.toOption.map fun b => (.package name, b), reply.host)
  | resolve context search catalog =>
    let o := (search.resolve catalog).run context host
    (o.value.toOption.map fun r => (r.attempt, r.binding), o.host)

def roots : Operation → List Path
  | loadFile _ => []
  | loadPackage _ roots => roots
  | resolve _ search _ => [search.dir]

end Operation

/-- One operation of a run, with the host and its disk as they are then. -/
structure Turn where
  before : NativeHost
  operation : Operation

namespace Turn

def answer (t : Turn) : Option (Attempt × Binding) := (t.operation.perform t.before).1

def after (t : Turn) : NativeHost := (t.operation.perform t.before).2

/-- The canonical path of an attempt's artifact at that time. -/
def key? (t : Turn) (a : Attempt) : Option Path :=
  (t.before.disk.artifact? t.operation.roots a).bind fun path =>
    (t.before.disk.canonical path).toOption

end Turn

namespace NativeHost

def onDisk (host : NativeHost) (disk : Disk) : NativeHost := { host with disk := disk }

def turns : NativeHost → List (Disk × Operation) → List Turn
  | _, [] => []
  | host, (disk, operation) :: rest =>
    let turn : Turn := ⟨host.onDisk disk, operation⟩
    turn :: turn.after.turns rest

def afterAll : NativeHost → List (Disk × Operation) → NativeHost
  | host, [] => host
  | host, (disk, operation) :: rest => (Turn.mk (host.onDisk disk) operation).after.afterAll rest

theorem resolve_loads (host : NativeHost) (s : Search) (catalog : Catalog)
    (context : List String) :
    let o := (s.resolve catalog).run context host
    (∃ e, o.value = .error e ∧ o.host = host) ∨
      ∃ (c : Candidate) (answer : Except Failure Binding), o.value = c.settle answer ∧
        host.Loads (host.disk.artifact? [s.dir] c.attempt) answer o.host := by
  dsimp only
  cases hp : s.plan catalog (s.pairOn host).1 (s.pairOn host).2 with
  | error e =>
    rw [run_resolve_of_error context host hp]
    exact .inl ⟨e, rfl, rfl⟩
  | ok candidates =>
    rcases all_absent_or_first_present host.disk [s.dir] candidates with ha | ⟨i, c, hi, hc, hb⟩
    · exact .inl ⟨_, resolve_all_absent hp ha context⟩
    · exact .inr ⟨c, resolve_first_present hp hi hc hb context⟩

end NativeHost

/-- A turn fails and leaves its host as it was, or it yields the binding of its artifact. -/
theorem Turn.yields_or_fails (t : Turn) :
    (t.answer = none ∧ t.after = t.before) ∨
      ∃ a b key, t.answer = some (a, b) ∧ t.key? a = some key ∧ t.before.Yields key b t.after := by
  obtain ⟨host, operation⟩ := t
  cases operation with
  | loadFile path =>
    rcases (host.loadFile_loads path).fails_or_yields with ⟨hn, hh⟩ | ⟨b, key, hv, hk, hy⟩
    · exact .inl ⟨by simp [Turn.answer, Operation.perform, hn], hh⟩
    · exact .inr ⟨.file path, b, key,
        by simp [Turn.answer, Operation.perform, hv, Except.toOption], hk, hy⟩
  | loadPackage name roots =>
    rcases (host.loadPackage_loads name roots).fails_or_yields with
      ⟨hn, hh⟩ | ⟨b, key, hv, hk, hy⟩
    · exact .inl ⟨by simp [Turn.answer, Operation.perform, hn], hh⟩
    · exact .inr ⟨.package name, b, key,
        by simp [Turn.answer, Operation.perform, hv, Except.toOption], hk, hy⟩
  | resolve context s catalog =>
    rcases host.resolve_loads s catalog context with ⟨e, hv, hh⟩ | ⟨c, answer, hv, hl⟩
    · exact .inl ⟨by simp [Turn.answer, Operation.perform, hv, Except.toOption], hh⟩
    · rcases hl.fails_or_yields with ⟨hn, hh⟩ | ⟨b, key, rfl, hk, hy⟩
      · refine .inl ⟨?_, hh⟩
        cases answer with
        | ok b => simp [Except.toOption] at hn
        | error e => simp [Turn.answer, Operation.perform, hv, Candidate.settle, Except.toOption]
      · exact .inr ⟨c.attempt, b, key,
          by simp [Turn.answer, Operation.perform, hv, Candidate.settle, Except.toOption], hk, hy⟩

namespace NativeHost

/-- A host that has kept exactly what it opened since `earlier`, each binding under its own path and
with a serial number of its own. -/
structure Tidy (earlier : List Binding) (host : NativeHost) : Prop where
  opened : host.opened = earlier ++ (host.loaded.map Prod.snd).reverse
  keyed : host.Keyed
  distinct : (host.loaded.map Prod.fst).Nodup
  serial_lt : ∀ entry ∈ host.loaded, entry.2.serial < host.opened.length
  serials : (host.loaded.map fun entry => entry.2.serial).Nodup

theorem tidy_fresh (disk : Disk) (earlier : List Binding) :
    Tidy earlier ⟨disk, [], earlier⟩ where
  opened := by simp
  keyed := by simp [Keyed]
  distinct := by simp
  serial_lt := by simp
  serials := by simp

theorem notMem_of_not_cached {host : NativeHost} {key : Path} (h : host.cached? key = none) :
    key ∉ host.loaded.map Prod.fst := by
  intro hk
  obtain ⟨entry, he, rfl⟩ := List.mem_map.mp hk
  have hh := List.lookup_eq_none_iff.mp h entry he
  simp at hh

theorem Tidy.eq_of_serial {earlier : List Binding} {host : NativeHost} (ht : host.Tidy earlier)
    {key key' : Path} {b b' : Binding} (h : host.cached? key = some b)
    (h' : host.cached? key' = some b') (hs : b.serial = b'.serial) : b = b' := by
  have he := List.inj_on_of_nodup_map ht.serials (mem_of_cached h) (mem_of_cached h') hs
  exact congrArg Prod.snd he

theorem Tidy.yields {earlier : List Binding} {host after : NativeHost} (ht : host.Tidy earlier)
    {key : Path} {b : Binding} (hy : host.Yields key b after) : after.Tidy earlier := by
  cases hy with
  | kept => exact ht
  | opened hc hl =>
    refine ⟨?_, ?_, ?_, ?_, ?_⟩
    · simp [keep, ht.opened]
    · intro entry he
      rcases List.mem_cons.mp he with rfl | he
      · rfl
      · exact ht.keyed entry he
    · exact List.nodup_cons.mpr ⟨notMem_of_not_cached hc, ht.distinct⟩
    · intro entry he
      simp only [keep, List.length_append, List.length_singleton]
      rcases List.mem_cons.mp he with rfl | he
      · simp
      · have := ht.serial_lt entry he
        omega
    · refine List.nodup_cons.mpr ⟨?_, ht.serials⟩
      intro hs
      obtain ⟨entry, he, hs⟩ := List.mem_map.mp hs
      have := ht.serial_lt entry he
      simp only at hs
      omega

theorem Tidy.opened_once {earlier : List Binding} {host : NativeHost} (ht : host.Tidy earlier) :
    ∃ opened, host.opened = earlier ++ opened ∧ (opened.map fun b => b.path).Nodup := by
  refine ⟨_, ht.opened, ?_⟩
  have hp : host.loaded.map (fun entry => entry.2.path) = host.loaded.map Prod.fst :=
    List.map_congr_left ht.keyed
  have hn : (host.loaded.map fun entry => entry.2.path).Nodup := hp ▸ ht.distinct
  rw [List.map_reverse, List.nodup_reverse, List.map_map]
  exact hn

theorem Yields.cached_mono {host after : NativeHost} {key key' : Path} {b b' : Binding}
    (hy : host.Yields key b after) (h : host.cached? key' = some b') :
    after.cached? key' = some b' := by
  cases hy with
  | kept => exact h
  | opened hc hl =>
    have hne : key' ≠ key := by
      rintro rfl
      simp [hc] at h
    simpa [cached?, keep, List.lookup_cons, beq_false_of_ne hne] using h

theorem Yields.cached {host after : NativeHost} {key : Path} {b : Binding}
    (hy : host.Yields key b after) : after.cached? key = some b := by
  cases hy with
  | kept hc => exact hc
  | opened hc hl => simp [cached?, keep]

section Run

variable {earlier : List Binding} {host : NativeHost}

theorem Tidy.onDisk (ht : host.Tidy earlier) (disk : Disk) : (host.onDisk disk).Tidy earlier :=
  ⟨ht.opened, ht.keyed, ht.distinct, ht.serial_lt, ht.serials⟩

theorem Tidy.turn {t : Turn} (ht : t.before.Tidy earlier) : t.after.Tidy earlier := by
  rcases t.yields_or_fails with ⟨-, hh⟩ | ⟨a, b, key, -, -, hy⟩
  · rw [hh]
    exact ht
  · exact ht.yields hy

theorem cached_turn {t : Turn} {key : Path} {b : Binding} (h : t.before.cached? key = some b) :
    t.after.cached? key = some b := by
  rcases t.yields_or_fails with ⟨-, hh⟩ | ⟨_, _, _, -, -, hy⟩
  · rw [hh]
    exact h
  · exact hy.cached_mono h

theorem Tidy.afterAll (ht : host.Tidy earlier) (steps : List (Disk × Operation)) :
    (host.afterAll steps).Tidy earlier := by
  induction steps generalizing host with
  | nil => exact ht
  | cons step rest ih => exact ih (ht.onDisk step.1).turn

theorem cached_afterAll {key : Path} {b : Binding} (h : host.cached? key = some b)
    (steps : List (Disk × Operation)) : (host.afterAll steps).cached? key = some b := by
  induction steps generalizing host with
  | nil => exact h
  | cons step rest ih =>
    have hb : (Turn.mk (host.onDisk step.1) step.2).before.cached? key = some b := h
    exact ih (cached_turn hb)

theorem Tidy.before_of_mem {steps : List (Disk × Operation)} (ht : host.Tidy earlier) {t : Turn}
    (hm : t ∈ host.turns steps) : t.before.Tidy earlier := by
  induction steps generalizing host with
  | nil => simp [turns] at hm
  | cons step rest ih =>
    rcases List.mem_cons.mp hm with rfl | hm
    · exact ht.onDisk step.1
    · exact ih (ht.onDisk step.1).turn hm

theorem cached_of_mem_turns {steps : List (Disk × Operation)} {t : Turn}
    (hm : t ∈ host.turns steps) {key : Path} {b : Binding} (h : t.after.cached? key = some b) :
    (host.afterAll steps).cached? key = some b := by
  induction steps generalizing host with
  | nil => simp [turns] at hm
  | cons step rest ih =>
    rcases List.mem_cons.mp hm with rfl | hm
    · exact cached_afterAll h rest
    · exact ih hm

/-- A binding that a turn answers with has the canonical path of its artifact and is kept for it to
the end of the run. -/
theorem Tidy.answer_kept {steps : List (Disk × Operation)} (ht : host.Tidy earlier) {t : Turn}
    (hm : t ∈ host.turns steps) {a : Attempt} {b : Binding} (h : t.answer = some (a, b)) :
    t.key? a = some b.path ∧ (host.afterAll steps).cached? b.path = some b := by
  rcases t.yields_or_fails with ⟨hn, -⟩ | ⟨a', b', key, ha, hk, hy⟩
  · simp [hn] at h
  · obtain ⟨rfl, rfl⟩ : a' = a ∧ b' = b := by simpa [ha] using h
    rw [hy.path_eq (ht.before_of_mem hm).keyed]
    exact ⟨hk, cached_of_mem_turns hm hy.cached⟩

end Run

/-- Over any run of a fresh host, a binding has the canonical path that its artifact had then; two
loads give one binding exactly when those paths were equal; no canonical path is opened twice; what
is kept stays; and a failure leaves everything as it was. -/
theorem one_binding_for_each_canonical_path (disk : Disk) (earlier : List Binding)
    (steps : List (Disk × Operation)) :
    let start : NativeHost := ⟨disk, [], earlier⟩
    let turns := start.turns steps
    let final := start.afterAll steps
    (∀ t ∈ turns, ∀ a b, t.answer = some (a, b) → t.key? a = some b.path) ∧
    (∀ t ∈ turns, ∀ u ∈ turns, ∀ a b a' b', t.answer = some (a, b) → u.answer = some (a', b') →
      (b.serial = b'.serial ↔ t.key? a = u.key? a') ∧ (b.serial = b'.serial → b = b')) ∧
    (∃ opened, final.opened = earlier ++ opened ∧ (opened.map fun b => b.path).Nodup) ∧
    (∀ t ∈ turns, ∀ key b,
      (t.before.cached? key = some b → t.after.cached? key = some b) ∧
      (t.after.cached? key = some b → final.cached? key = some b)) ∧
    ∀ t ∈ turns, t.answer = none →
      t.after.loaded = t.before.loaded ∧ t.after.opened = t.before.opened := by
  intro start turns final
  have ht : start.Tidy earlier := tidy_fresh disk earlier
  have hf : final.Tidy earlier := ht.afterAll steps
  refine ⟨fun t hm a b h => (ht.answer_kept hm h).1, fun t hm u hm' a b a' b' h h' => ?_,
    hf.opened_once, fun t hm key b => ⟨cached_turn, cached_of_mem_turns hm⟩, fun t hm hn => ?_⟩
  · obtain ⟨hk, hc⟩ := ht.answer_kept hm h
    obtain ⟨hk', hc'⟩ := ht.answer_kept hm' h'
    have he : b.serial = b'.serial → b = b' := hf.eq_of_serial hc hc'
    refine ⟨⟨fun hs => ?_, fun hkeys => ?_⟩, he⟩
    · rw [hk, hk', he hs]
    · have hp : b.path = b'.path := by simpa [hk, hk'] using hkeys
      rw [hp] at hc
      have hb : b = b' := by simpa [hc] using hc'
      rw [hb]
  · rcases t.yields_or_fails with ⟨-, hh⟩ | ⟨a, b, key, ha, -, -⟩
    · rw [hh]
      exact ⟨rfl, rfl⟩
    · simp [hn] at ha

end NativeHost

end Prebuilt
