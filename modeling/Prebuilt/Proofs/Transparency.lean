import Prebuilt.Proofs.Cache
import Prebuilt.Proofs.TwoHosts

/-! Keeping bindings changes no answer. While the disk stays as it is, an operation on a host that has
kept any number of bindings answers as it would on one that has kept none, but for the identity of
the binding; and asked again it gives the very binding it gave before. -/

namespace Prebuilt

theorem except_map_mapError {ε ε' α β : Type} (x : Except ε α) (f : ε → ε') (g : α → β) :
    (x.mapError f).map g = (x.map g).mapError f := by
  cases x <;> rfl

theorem except_eq_of_map_eq {ε α β γ : Type} {f : α → β} {p : α → γ}
    (hinj : ∀ a b, f a = f b → p a = p b → a = b) {x y : Except ε α} (h : x.map f = y.map f)
    (hp : x.toOption.map p = y.toOption.map p) : x = y := by
  cases x with
  | error e =>
    cases y with
    | error e' => exact congrArg Except.error (Except.error.inj h)
    | ok b => simp [Except.map] at h
  | ok a =>
    cases y with
    | error e => simp [Except.map] at h
    | ok b => exact congrArg Except.ok (hinj a b (Except.ok.inj h) (Option.some.inj hp))

theorem Resolved.eq_of_map_eq {β γ : Type} {f : β → γ} {r r' : Resolved β}
    (h : r.map f = r'.map f) (hb : r.binding = r'.binding) : r = r' := by
  obtain ⟨b, t, a⟩ := r
  obtain ⟨b', t', a'⟩ := r'
  obtain ⟨-, rfl, rfl⟩ : f b = f b' ∧ t = t' ∧ a = a' := by simpa [Resolved.map] using h
  exact congrArg (Resolved.mk · t a) hb

/-- What the caller of an operation is told. -/
inductive Answer (β : Type) where
  | file (value : Except LoadError β)
  | package (value : Except PackageError β)
  | search (value : Except ResolveError (Resolved β))

namespace Answer

variable {β γ : Type}

def map (f : β → γ) : Answer β → Answer γ
  | file value => file (value.map f)
  | package value => package (value.map f)
  | search value => search (value.map (Resolved.map f))

def binding? : Answer β → Option β
  | file value => value.toOption
  | package value => value.toOption
  | search value => value.toOption.map fun r => r.binding

theorem binding?_map (f : β → γ) (x : Answer β) : (x.map f).binding? = x.binding?.map f := by
  cases x with
  | file value => cases value <;> rfl
  | package value => cases value <;> rfl
  | search value => cases value <;> rfl

/-- An answer is known by what is told of its binding and by the binding itself. -/
theorem eq_of_map_eq {f : β → γ} {x y : Answer β} (h : x.map f = y.map f)
    (hb : x.binding? = y.binding?) : x = y := by
  cases x with
  | file value =>
    cases y with
    | file value' =>
      have hid : value.toOption.map id = value'.toOption.map id := by
        simpa [binding?] using hb
      exact congrArg file (except_eq_of_map_eq (fun _ _ _ he => he) (Answer.file.inj h) hid)
    | _ => simp [map] at h
  | package value =>
    cases y with
    | package value' =>
      have hid : value.toOption.map id = value'.toOption.map id := by
        simpa [binding?] using hb
      exact congrArg package (except_eq_of_map_eq (fun _ _ _ he => he) (Answer.package.inj h) hid)
    | _ => simp [map] at h
  | search value =>
    cases y with
    | search value' =>
      exact congrArg search (except_eq_of_map_eq (fun _ _ => Resolved.eq_of_map_eq)
        (Answer.search.inj h) hb)
    | _ => simp [map] at h

end Answer

/-- A binding but for its identity. -/
def Binding.content (b : Binding) : Path × Library := (b.path, b.library)

def Operation.answer (host : NativeHost) : Operation → Answer Binding
  | loadFile path => .file (host.loadFile path).value
  | loadPackage name roots => .package (host.loadPackage name roots).value
  | resolve context search catalog => .search ((search.resolve catalog).run context host).value

def Turn.reply (t : Turn) : Answer Binding := t.operation.answer t.before

theorem Turn.binding?_reply (t : Turn) : t.reply.binding? = t.answer.map Prod.snd := by
  obtain ⟨host, operation⟩ := t
  cases operation <;> simp [Turn.reply, Operation.answer, Answer.binding?, Turn.answer,
    Operation.perform, Function.comp_def]

/-- What the loader makes of a canonical path. -/
def Disk.load (disk : Disk) (key : Path) : Except LoadError (Path × Library) :=
  match disk.library key with
  | none => .error (.loading key)
  | some library => .ok (key, library)

namespace NativeHost

/-- A host that keeps, under each path, what the loader makes of that path. -/
structure Faithful (host : NativeHost) : Prop where
  keyed : host.Keyed
  library : ∀ entry ∈ host.loaded, host.disk.library entry.1 = some entry.2.library

theorem faithful_fresh (disk : Disk) (opened : List Binding) : Faithful ⟨disk, [], opened⟩ where
  keyed := by simp [Keyed]
  library := by simp

/-- Two hosts that look at one disk and keep only what it holds. -/
structure Alike (host host' : NativeHost) : Prop where
  disk : host.disk = host'.disk
  left : host.Faithful
  right : host'.Faithful

/-- A binding that is kept is the one the loader would give. -/
theorem Faithful.loadCanonical {host : NativeHost} (hf : host.Faithful) (key : Path) :
    (host.loadCanonical key).value.map Binding.content = host.disk.load key := by
  unfold NativeHost.loadCanonical Disk.load
  dsimp only
  cases hc : host.cached? key with
  | some binding =>
    have hm := mem_of_cached hc
    have hl := hf.library _ hm
    have hk := hf.keyed _ hm
    dsimp only at hl hk ⊢
    rw [hl, Except.map, Binding.content, hk]
  | none =>
    unfold openLibrary
    cases host.disk.library key <;> rfl

/-- How loading goes of an attempt that is there. -/
def loadThere (host : NativeHost) (roots : List Path) : Attempt → Except Failure Binding
  | .package name => (host.loadPackage name roots).value.mapError PackageError.failure
  | .file path => (host.loadFile path).value.mapError LoadError.failure

theorem value_probe_there {host : NativeHost} {roots : List Path} {a : Attempt}
    (h : host.disk.isThere roots a = true) (context : List String) :
    ((a.probe roots).run context host).value = .ofLoad (host.loadThere roots a) := by
  cases a with
  | package name =>
    obtain ⟨dir, hdir⟩ := Option.isSome_iff_exists.mp h
    rw [run_probe_package]
    change Presence.ofPackage (host.loadPackage name roots).value = _
    rw [loadThere, (loadPackage_of_some hdir).1]
    cases (host.loadInstalled name dir).value <;> rfl
  | file path =>
    rw [run_probe_file_present h]
    rfl

namespace Alike

variable {host host' : NativeHost}

theorem loadFile (h : host.Alike host') (path : Path) :
    (host.loadFile path).value.map Binding.content =
      (host'.loadFile path).value.map Binding.content := by
  unfold NativeHost.loadFile
  rw [h.disk]
  cases host'.disk.canonical path with
  | error e => rfl
  | ok key =>
    dsimp only
    rw [h.left.loadCanonical, h.right.loadCanonical, h.disk]

theorem loadInstalled (h : host.Alike host') (name : PackageName) (dir : Path) :
    (host.loadInstalled name dir).value.map Binding.content =
      (host'.loadInstalled name dir).value.map Binding.content := by
  unfold NativeHost.loadInstalled
  rw [h.disk]
  cases Manifest.ofDisk host'.disk dir with
  | error e => rfl
  | ok manifest =>
    dsimp only
    cases manifest.mainPath dir with
    | error e => rfl
    | ok main =>
      dsimp only
      by_cases hf : host'.disk.isFile main = true
      · rw [if_pos hf, if_pos hf]
        exact h.loadFile main
      · rw [if_neg hf, if_neg hf]

theorem loadPackage (h : host.Alike host') (name : PackageName) (roots : List Path) :
    (host.loadPackage name roots).value.map Binding.content =
      (host'.loadPackage name roots).value.map Binding.content := by
  cases hd : (host.disk.findPackage name roots).1 with
  | none =>
    have hd' : (host'.disk.findPackage name roots).1 = none := h.disk ▸ hd
    rw [(loadPackage_of_none hd).1, (loadPackage_of_none hd').1]
  | some dir =>
    have hd' : (host'.disk.findPackage name roots).1 = some dir := h.disk ▸ hd
    rw [(loadPackage_of_some hd).1, (loadPackage_of_some hd').1, except_map_mapError,
      except_map_mapError, h.loadInstalled]

theorem loadThere (h : host.Alike host') (roots : List Path) (a : Attempt) :
    (host.loadThere roots a).map Binding.content =
      (host'.loadThere roots a).map Binding.content := by
  cases a with
  | package name =>
    rw [NativeHost.loadThere, NativeHost.loadThere, except_map_mapError, except_map_mapError,
      h.loadPackage]
  | file path =>
    rw [NativeHost.loadThere, NativeHost.loadThere, except_map_mapError, except_map_mapError,
      h.loadFile]

theorem agreeInTurn (h : host.Alike host') (roots : List Path) (context : List String)
    (candidates : List Candidate) :
    AgreeInTurn Binding.content Binding.content roots context candidates host host' := by
  induction candidates with
  | nil => exact .exhausted
  | cons c rest ih =>
    cases ht : host.disk.isThere roots c.attempt with
    | false =>
      obtain ⟨hv, hh⟩ := probe_absent ht context
      obtain ⟨hv', hh'⟩ := probe_absent (h.disk ▸ ht) context
      refine .absent hv hv' ?_
      rw [hh, hh']
      exact ih
    | true =>
      exact .present (value_probe_there ht context) (value_probe_there (h.disk ▸ ht) context)
        (h.loadThere roots c.attempt)

theorem answer (h : host.Alike host') (operation : Operation) :
    (operation.answer host).map Binding.content = (operation.answer host').map Binding.content := by
  cases operation with
  | loadFile path => exact congrArg Answer.file (h.loadFile path)
  | loadPackage name roots => exact congrArg Answer.package (h.loadPackage name roots)
  | resolve context s catalog =>
    have hpair : s.pairOn host = s.pairOn host' := rfl
    exact congrArg Answer.search
      (resolve_of_agreeInTurn hpair fun candidates _ => h.agreeInTurn _ _ candidates).1

end Alike

/-! Runs on a disk that does not change. -/

theorem Yields.faithful {host after : NativeHost} {key : Path} {b : Binding} (hf : host.Faithful)
    (hy : host.Yields key b after) : after.Faithful ∧ after.disk = host.disk := by
  cases hy with
  | kept => exact ⟨hf, rfl⟩
  | opened hc hl =>
    refine ⟨⟨fun entry he => ?_, fun entry he => ?_⟩, rfl⟩
    · rcases List.mem_cons.mp he with rfl | he
      · rfl
      · exact hf.keyed entry he
    · rcases List.mem_cons.mp he with rfl | he
      · exact hl
      · exact hf.library entry he

theorem Yields.eq_of_cached {host after : NativeHost} {key : Path} {b b' : Binding}
    (hy : host.Yields key b after) (h : host.cached? key = some b') : b = b' ∧ after = host := by
  cases hy with
  | kept hc => exact ⟨Option.some.inj (hc.symm.trans h), rfl⟩
  | opened hc => simp [hc] at h

theorem Faithful.turn {t : Turn} (hf : t.before.Faithful) :
    t.after.Faithful ∧ t.after.disk = t.before.disk := by
  rcases t.yields_or_fails with ⟨-, hh⟩ | ⟨a, b, key, -, -, hy⟩
  · rw [hh]
    exact ⟨hf, rfl⟩
  · exact hy.faithful hf

section Run

variable {host : NativeHost} {disk : Disk} {ops : List Operation}

theorem Faithful.before_of_mem (hf : host.Faithful) (hd : host.disk = disk) {t : Turn}
    (hm : t ∈ host.turns (ops.map fun op => (disk, op))) :
    t.before.Faithful ∧ t.before.disk = disk := by
  induction ops generalizing host with
  | nil => simp [turns] at hm
  | cons op rest ih =>
    have hsame : host.onDisk disk = host := by rw [← hd, onDisk]
    have hfirst : (Turn.mk (host.onDisk disk) op).before.Faithful := by
      rw [hsame]
      exact hf
    rcases List.mem_cons.mp hm with rfl | hm
    · exact ⟨hfirst, rfl⟩
    · exact ih hfirst.turn.1 hfirst.turn.2 hm

theorem operation_turns (host : NativeHost) (steps : List (Disk × Operation)) :
    (host.turns steps).map (fun t => t.operation) = steps.map Prod.snd := by
  induction steps generalizing host with
  | nil => rfl
  | cons step rest ih =>
    rw [turns, List.map_cons, List.map_cons, ih]

theorem drop_turns {steps : List (Disk × Operation)} {i : Nat} {t : Turn}
    (h : (host.turns steps)[i]? = some t) :
    (host.turns steps).drop (i + 1) = t.after.turns (steps.drop (i + 1)) := by
  induction steps generalizing host i with
  | nil => simp [turns] at h
  | cons step rest ih =>
    cases i with
    | zero =>
      obtain rfl := Option.some.inj h
      rfl
    | succ i => exact ih h

theorem cached_before_of_mem {steps : List (Disk × Operation)} {key : Path} {b : Binding}
    (h : host.cached? key = some b) {u : Turn} (hm : u ∈ host.turns steps) :
    u.before.cached? key = some b := by
  induction steps generalizing host with
  | nil => simp [turns] at hm
  | cons step rest ih =>
    have hb : (Turn.mk (host.onDisk step.1) step.2).before.cached? key = some b := h
    rcases List.mem_cons.mp hm with rfl | hm
    · exact hb
    · exact ih (cached_turn hb) hm

end Run

/-- An operation that is repeated while what it kept is still kept changes nothing and gives the same
answer, the same binding included. -/
theorem repeated_turn {t u : Turn} (ha : t.before.Alike u.before)
    (ho : u.operation = t.operation)
    (hkept : ∀ key b, t.after.cached? key = some b → u.before.cached? key = some b) :
    u.reply = t.reply ∧ u.after = u.before := by
  have hsame : u.reply.map Binding.content = t.reply.map Binding.content := by
    rw [Turn.reply, Turn.reply, ho]
    exact (ha.answer t.operation).symm
  have hcontent := congrArg Answer.binding? hsame
  rw [Answer.binding?_map, Answer.binding?_map, u.binding?_reply, t.binding?_reply] at hcontent
  rcases u.yields_or_fails with ⟨hu, hh⟩ | ⟨a', b', key', hu, -, hy'⟩
  · refine ⟨Answer.eq_of_map_eq hsame ?_, hh⟩
    have ht : t.answer = none := by simpa [hu] using hcontent.symm
    rw [u.binding?_reply, t.binding?_reply, hu, ht]
  · rcases t.yields_or_fails with ⟨ht, -⟩ | ⟨a, b, key, ht, -, hy⟩
    · simp [hu, ht] at hcontent
    · have hc : b'.content = b.content := by simpa [hu, ht] using hcontent
      have hkey : key' = key := by
        rw [← hy'.path_eq ha.right.keyed, ← hy.path_eq ha.left.keyed]
        exact congrArg Prod.fst hc
      obtain ⟨hb, hh⟩ := hy'.eq_of_cached (hkey ▸ hkept key b hy.cached)
      refine ⟨Answer.eq_of_map_eq hsame ?_, hh⟩
      rw [u.binding?_reply, t.binding?_reply, hu, ht, Option.map_some, Option.map_some, hb]

/-- In a run of a fresh host on a disk that does not change, each operation answers as it would alone
on another fresh host, apart from the identity of the binding. An operation that comes again gives the
same answer with the same binding and leaves the host as it was. -/
theorem answers_as_if_fresh (disk : Disk) (earlier : List Binding) (ops : List Operation) :
    let start : NativeHost := ⟨disk, [], earlier⟩
    let turns := start.turns (ops.map fun op => (disk, op))
    turns.map (fun t => t.operation) = ops ∧
    (∀ t ∈ turns, ∀ opened : List Binding,
      t.reply.map Binding.content =
        (t.operation.answer ⟨disk, [], opened⟩).map Binding.content) ∧
    ∀ (i j : Nat) (t u : Turn), i < j → turns[i]? = some t → turns[j]? = some u →
      u.operation = t.operation → u.reply = t.reply ∧ u.after = u.before := by
  intro start turns
  have hf : start.Faithful := faithful_fresh disk earlier
  have hbefore {t : Turn} (hm : t ∈ turns) := hf.before_of_mem rfl hm
  refine ⟨?_, fun t hm opened => ?_, fun i j t u hij ht hu ho => ?_⟩
  · rw [operation_turns, List.map_map]
    exact List.map_id _
  · have ha : t.before.Alike ⟨disk, [], opened⟩ :=
      ⟨(hbefore hm).2, (hbefore hm).1, faithful_fresh disk opened⟩
    exact ha.answer t.operation
  · obtain ⟨hft, hdt⟩ := hbefore (List.mem_of_getElem? ht)
    obtain ⟨hfu, hdu⟩ := hbefore (List.mem_of_getElem? hu)
    have hlater : u ∈ turns.drop (i + 1) := by
      apply List.mem_of_getElem? (i := j - (i + 1))
      rw [List.getElem?_drop, Nat.add_sub_cancel' hij, hu]
    rw [drop_turns ht] at hlater
    exact repeated_turn ⟨hdt.trans hdu.symm, hft, hfu⟩ ho
      fun key b hk => cached_before_of_mem hk hlater

/-- A library is loaded by one name, by another and by the first again: the third answer is the first
one over, and nothing changes. -/
theorem third_load_repeats_first :
    let disk : Disk :=
      { isFile := fun _ => true
        read := fun _ => .error .notFound
        canonical := fun _ => .ok ⟨"/lib/a.so"⟩
        library := fun _ => some ⟨["answer"]⟩ }
    let ops : List Operation := [.loadFile ⟨"a.so"⟩, .loadFile ⟨"lib/../a.so"⟩, .loadFile ⟨"a.so"⟩]
    let turns := NativeHost.turns ⟨disk, [], []⟩ (ops.map fun op => (disk, op))
    ∃ t u : Turn, turns[0]? = some t ∧ turns[2]? = some u ∧
      t.reply.binding? = some ⟨0, ⟨"/lib/a.so"⟩, ⟨["answer"]⟩⟩ ∧
      u.reply = t.reply ∧ u.after = u.before := by
  intro disk ops turns
  refine ⟨_, _, rfl, rfl, rfl, ?_⟩
  exact (answers_as_if_fresh disk [] ops).2.2 0 2 _ _ (by decide) rfl rfl rfl

end NativeHost

end Prebuilt
