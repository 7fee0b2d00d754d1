import Prebuilt.Proofs.Candidates
import Prebuilt.Proofs.LookingUp
import Prebuilt.Proofs.PackageFaults

/-! What a search on a disk logs. Its log falls into blocks, one for each candidate that is tried, and
what is said in a block follows from the disk and from what is kept; a last line stands behind them if
a binding is loaded. -/

namespace Prebuilt

namespace Event

/-- The level and the words of what a search logs. -/
inductive Reads : Event → Level → String → Prop where
  | trying (a : Attempt) (t : Target) :
      Reads (.trying a t) .debug ("trying " ++ a.text ++ " for " ++ t.text)
  | probed (path : Path) (present : Bool) : Reads (.probed path present) .trace
      ("probed " ++ path.text ++ ": " ++ if present then "true" else "false")
  | looking (name : PackageName) (dir : Path) :
      Reads (.looking name dir) .trace ("looking for " ++ name.text ++ " in " ++ dir.text)
  | found (name : PackageName) (dir : Path) :
      Reads (.found name dir) .debug ("found package " ++ name.text ++ " at " ++ dir.text)
  | misnamed (dir : Path) (name : PackageName) (declared : String) :
      Reads (.misnamed dir name declared) .warn
        (dir.text ++ " is installed as " ++ name.text ++ ", but calls itself " ++ declared)
  | alreadyLoaded (key : Path) : Reads (.alreadyLoaded key) .debug (key.text ++ " already loaded")
  | loaded (a : Attempt) (t : Target) :
      Reads (.loaded a t) .info ("loaded native binding " ++ a.text ++ " (" ++ t.raw ++ ")")

/-- The candidate that an event says is tried. -/
def tried? : Event → Option Candidate
  | .trying a t => some ⟨t, a⟩
  | _ => none

def isLoaded : Event → Bool
  | .loaded .. => true
  | _ => false

/-- What the host has to say, and not the search. -/
def isRemark : Event → Bool
  | .probed .. => true
  | .looking .. => true
  | .found .. => true
  | .misnamed .. => true
  | .alreadyLoaded .. => true
  | _ => false

variable {e : Event}

theorem reads_of_isRemark (h : e.isRemark = true) : e.Reads e.level e.message := by
  cases e with
  | running => simp [isRemark] at h
  | trying => simp [isRemark] at h
  | loaded => simp [isRemark] at h
  | probed path present => exact .probed path present
  | looking name dir => exact .looking name dir
  | found name dir => exact .found name dir
  | misnamed dir name declared => exact .misnamed dir name declared
  | alreadyLoaded key => exact .alreadyLoaded key

theorem tried_of_isRemark (h : e.isRemark = true) : e.tried? = none := by
  cases e <;> simp_all [isRemark, tried?]

theorem isLoaded_of_isRemark (h : e.isRemark = true) : e.isLoaded = false := by
  cases e <;> simp_all [isRemark, isLoaded]

end Event

namespace NativeHost

/-- What is said on loading an artifact: that it is loaded already, if something is kept for its
canonical path. -/
inductive Hits (host : NativeHost) (artifact : Option Path) : List Event → Prop where
  | kept {path key : Path} {binding : Binding} (ha : artifact = some path)
      (hk : host.disk.canonical path = .ok key) (hc : host.cached? key = some binding) :
      Hits host artifact [.alreadyLoaded key]
  | silent (h : ∀ path key, artifact = some path → host.disk.canonical path = .ok key →
      host.cached? key = none) : Hits host artifact []

/-- What is said on reading the manifest in a directory: that it has another name, if it can be read
and has one. -/
inductive Warns (host : NativeHost) (name : PackageName) (dir : Path) : List Event → Prop where
  | misnamed {m : Manifest} {declared : String} (hm : host.disk.Declares dir m)
      (hname : m.name = some declared) (hne : declared ≠ name.text) :
      Warns host name dir [.misnamed dir name declared]
  | silent (h : ∀ m declared, host.disk.Declares dir m → m.name = some declared →
      declared = name.text) : Warns host name dir []

/-- What the host says about an attempt. A file is probed once. For a package the directories are
looked at up to the first with a manifest, which is the one it is found at; then its manifest is read
and what it points at is loaded. -/
inductive Accounts (host : NativeHost) (root : Path) : Attempt → List Event → Prop where
  | file {path : Path} {hit : List Event}
      (hh : host.Hits (if host.disk.isFile path then some path else none) hit) :
      Accounts host root (.file path) (.probed path (host.disk.isFile path) :: hit)
  | missing {name : PackageName}
      (h : ∀ dir ∈ name.places [root], host.disk.hasManifest dir = false) :
      Accounts host root (.package name) (Disk.looked name (name.places [root]))
  | installed {name : PackageName} {before after : List Path} {dir : Path}
      {warned hit : List Event} (hplaces : name.places [root] = before ++ dir :: after)
      (hbefore : ∀ d ∈ before, host.disk.hasManifest d = false)
      (hdir : host.disk.hasManifest dir = true) (hw : host.Warns name dir warned)
      (hh : host.Hits (host.disk.mainOf? dir) hit) :
      Accounts host root (.package name)
        (Disk.looked name (before ++ [dir]) ++ .found name dir :: (warned ++ hit))

section Parts

variable {host : NativeHost} {name : PackageName} {dir : Path}

theorem hits_loadFile (host : NativeHost) (path : Path) :
    host.Hits (some path) (host.loadFile path).events := by
  unfold loadFile
  cases hk : host.disk.canonical path with
  | error e =>
    apply Hits.silent
    rintro path key ⟨rfl⟩ hkey
    exact absurd (hk.symm.trans hkey) (by simp)
  | ok key =>
    unfold loadCanonical
    dsimp only
    cases hc : host.cached? key with
    | some binding => exact .kept rfl hk hc
    | none =>
      have hnone : host.Hits (some path) [] := by
        apply Hits.silent
        rintro path key' ⟨rfl⟩ hkey
        obtain rfl : key = key' := by simpa [hk] using hkey
        exact hc
      unfold openLibrary
      cases host.disk.library key with
      | none => exact hnone
      | some library => exact hnone

theorem warns_nameEvents {m : Manifest} (hm : host.disk.Declares dir m) :
    host.Warns name dir (m.nameEvents name dir) := by
  have hsame {m' : Manifest} (hm' : host.disk.Declares dir m') : m' = m :=
    Except.ok.inj (hm'.ofDisk.symm.trans hm.ofDisk)
  unfold Manifest.nameEvents
  cases hname : m.name with
  | none =>
    apply Warns.silent
    intro m' declared hm' hdeclared
    rw [hsame hm', hname] at hdeclared
    exact absurd hdeclared (by simp)
  | some declared =>
    by_cases he : declared = name.text
    · rw [he]
      dsimp only
      rw [if_pos rfl]
      apply Warns.silent
      intro m' declared' hm' hdeclared
      rw [hsame hm', hname] at hdeclared
      exact (Option.some.inj hdeclared).symm.trans he
    · dsimp only
      rw [if_neg he]
      exact .misnamed hm hname he

theorem account_loadInstalled (host : NativeHost) (name : PackageName) (dir : Path) :
    ∃ warned hit, (host.loadInstalled name dir).events = warned ++ hit ∧
      host.Warns name dir warned ∧ host.Hits (host.disk.mainOf? dir) hit := by
  unfold loadInstalled Disk.mainOf?
  cases hm : Manifest.ofDisk host.disk dir with
  | error e =>
    refine ⟨[], [], rfl, .silent fun m declared hdeclares _ => ?_, .silent (by simp)⟩
    exact absurd (hm.symm.trans hdeclares.ofDisk) (by simp)
  | ok m =>
    have hwarns : host.Warns name dir (m.nameEvents name dir) :=
      warns_nameEvents (Disk.declares_of_ofDisk hm)
    dsimp only
    cases m.mainPath dir with
    | error e => exact ⟨_, [], (List.append_nil _).symm, hwarns, .silent (by simp)⟩
    | ok main =>
      dsimp only
      by_cases hf : host.disk.isFile main = true
      · rw [if_pos hf, if_pos hf]
        exact ⟨_, _, rfl, hwarns, host.hits_loadFile main⟩
      · rw [if_neg hf, if_neg hf]
        exact ⟨_, [], (List.append_nil _).symm, hwarns, .silent (by simp)⟩

theorem accounts_loadPackage (host : NativeHost) (name : PackageName) (root : Path) :
    host.Accounts root (.package name) (host.loadPackage name [root]).events := by
  unfold loadPackage Disk.findPackage
  rcases host.disk.absent_or_first (name.places [root]) with
    habsent | ⟨before, dir, after, hplaces, hbefore, hdir⟩
  · rw [Disk.firstInstalled_of_absent habsent]
    exact .missing habsent
  · rw [hplaces, Disk.firstInstalled_of_first hbefore hdir]
    obtain ⟨warned, hit, he, hw, hh⟩ := host.account_loadInstalled name dir
    dsimp only
    rw [he]
    exact .installed hplaces hbefore hdir hw hh

theorem accounts_probe (host : NativeHost) (root : Path) (a : Attempt) (context : List String) :
    host.Accounts root a ((a.probe [root]).run context host).events := by
  cases a with
  | package name =>
    rw [run_probe_package]
    exact host.accounts_loadPackage name root
  | file path =>
    have hlooked : (Host.isFile host path).events = [.probed path (host.disk.isFile path)] := rfl
    cases hf : host.disk.isFile path with
    | false =>
      rw [run_probe_file_absent hf, hlooked]
      exact .file (.silent (by simp [hf]))
    | true =>
      rw [run_probe_file_present hf, hlooked]
      refine .file ?_
      rw [if_pos hf]
      exact host.hits_loadFile path

end Parts

section Kept

variable {host after : NativeHost} {artifact : Option Path} {root : Path} {a : Attempt}
  {hit remarks : List Event}

theorem Hits.isRemark (h : host.Hits artifact hit) : ∀ e ∈ hit, e.isRemark = true := by
  cases h <;> simp [Event.isRemark]

theorem Warns.isRemark {name : PackageName} {dir : Path} (h : host.Warns name dir remarks) :
    ∀ e ∈ remarks, e.isRemark = true := by
  cases h <;> simp [Event.isRemark]

theorem Accounts.isRemark (h : host.Accounts root a remarks) : ∀ e ∈ remarks, e.isRemark = true := by
  have hlooked (name : PackageName) (dirs : List Path) :
      ∀ e ∈ Disk.looked name dirs, e.isRemark = true := by
    simp [Disk.looked, Event.isRemark]
  cases h with
  | file hh => exact List.forall_mem_cons.mpr ⟨rfl, hh.isRemark⟩
  | missing => exact hlooked _ _
  | installed _ _ _ hw hh =>
    exact List.forall_mem_append.mpr ⟨hlooked _ _, List.forall_mem_cons.mpr
      ⟨rfl, List.forall_mem_append.mpr ⟨hw.isRemark, hh.isRemark⟩⟩⟩

/-- Something is said to be loaded already just when loading succeeds without opening anything. -/
theorem Hits.kept_iff {ε : Type} {answer : Except ε Binding} (hh : host.Hits artifact hit)
    (hl : host.Loads artifact answer after) :
    (∃ key, .alreadyLoaded key ∈ hit) ↔ (∃ b, answer = .ok b) ∧ after.opened = host.opened := by
  cases hh with
  | kept ha hk hc =>
    cases hl with
    | failed h => exact absurd hc (by simp [(h _ _ ha hk).1])
    | loaded ha' hk' hy =>
      obtain rfl := Option.some.inj (ha.symm.trans ha')
      obtain rfl := Except.ok.inj (hk.symm.trans hk')
      cases hy with
      | kept => simp
      | opened hc' => exact absurd hc (by simp [hc'])
  | silent h =>
    cases hl with
    | failed => simp
    | loaded ha hk hy =>
      cases hy with
      | kept hc => exact absurd hc (by simp [h _ _ ha hk])
      | opened => simp [keep]

theorem alreadyLoaded_notMem_looked (name : PackageName) (dirs : List Path) (key : Path) :
    .alreadyLoaded key ∉ Disk.looked name dirs := by
  simp [Disk.looked]

theorem findPackage_of_first {disk : Disk} {name : PackageName} {before after : List Path}
    {dir : Path} (hplaces : name.places [root] = before ++ dir :: after)
    (hbefore : ∀ d ∈ before, disk.hasManifest d = false) (hdir : disk.hasManifest dir = true) :
    (disk.findPackage name [root]).1 = some dir := by
  rw [Disk.findPackage, hplaces, Disk.firstInstalled_of_first hbefore hdir]

/-- Of an attempt that is there, what is said of its artifact decides. -/
theorem Accounts.exists_hits (h : host.Accounts root a remarks)
    (ha : host.disk.isThere [root] a = true) :
    ∃ hit, host.Hits (host.disk.artifact? [root] a) hit ∧
      ∀ key, .alreadyLoaded key ∈ remarks ↔ .alreadyLoaded key ∈ hit := by
  cases h with
  | @file path hit hh =>
    have hfile : host.disk.isFile path = true := ha
    rw [if_pos hfile] at hh
    exact ⟨hit, hh, fun key => by simp⟩
  | missing h =>
    exact absurd ha (by simp [Disk.isThere, Disk.findPackage, Disk.firstInstalled_of_absent h])
  | @installed name before after dir warned hit hplaces hbefore hdir hw hh =>
    refine ⟨hit, ?_, fun key => ?_⟩
    · rw [Disk.artifact?, findPackage_of_first hplaces hbefore hdir, Option.bind_some]
      exact hh
    · have hwarned : .alreadyLoaded key ∉ warned := by
        cases hw <;> simp
      simp [alreadyLoaded_notMem_looked, hwarned]

theorem Accounts.alreadyLoaded_notMem (h : host.Accounts root a remarks)
    (ha : host.disk.isThere [root] a = false) (key : Path) : .alreadyLoaded key ∉ remarks := by
  cases h with
  | @file path hit hh =>
    have hfile : host.disk.isFile path = false := ha
    cases hh with
    | kept hp => exact absurd hp (by simp [hfile])
    | silent => simp
  | missing => exact alreadyLoaded_notMem_looked _ _ key
  | installed hplaces hbefore hdir =>
    simp [Disk.isThere, findPackage_of_first hplaces hbefore hdir] at ha

end Kept

/-- How the candidates divide into those tried and the others, and what is said behind the blocks. -/
inductive Closes : Except ResolveError (Resolved Binding) → (tried skipped : List Candidate) →
    List Event → Prop where
  | unsupported (platform arch : String) :
      Closes (.error (.unsupportedTarget platform arch)) [] [] []
  | notFound (tried : List Candidate) :
      Closes (.error (.bindingNotFound (tried.map fun c => c.attempt.text))) tried [] []
  | broken (before : List Candidate) (c : Candidate) (cause : Failure) (skipped : List Candidate) :
      Closes (.error (.resolution c.attempt.text cause)) (before ++ [c]) skipped []
  | loaded (before : List Candidate) (c : Candidate) (binding : Binding)
      (skipped : List Candidate) : Closes (.ok ⟨binding, c.target, c.attempt⟩) (before ++ [c]) skipped
      [.loaded c.attempt c.target]

/-- The blocks of candidates, with what is remarked on each of them. -/
def blocks (remarks : Candidate → List Event) (tried : List Candidate) : List Event :=
  tried.flatMap fun c => .trying c.attempt c.target :: remarks c

section Blocks

variable {remarks : Candidate → List Event} {tried skipped : List Candidate} {ending : List Event}
  {answer : Except ResolveError (Resolved Binding)}

theorem mem_blocks_iff {e : Event} : e ∈ blocks remarks tried ↔
    ∃ c ∈ tried, e = .trying c.attempt c.target ∨ e ∈ remarks c := by
  simp [blocks]

theorem tried_blocks (h : ∀ c, ∀ e ∈ remarks c, e.isRemark = true) (tried : List Candidate) :
    (blocks remarks tried).filterMap Event.tried? = tried := by
  induction tried with
  | nil => rfl
  | cons c tried ih =>
    have hnone : (remarks c).filterMap Event.tried? = [] :=
      List.filterMap_eq_nil_iff.mpr fun e he => Event.tried_of_isRemark (h c e he)
    have hcons : blocks remarks (c :: tried) =
        .trying c.attempt c.target :: (remarks c ++ blocks remarks tried) := List.flatMap_cons ..
    rw [hcons, List.filterMap_cons, List.filterMap_append, hnone, ih]
    rfl

theorem loaded_blocks (h : ∀ c, ∀ e ∈ remarks c, e.isRemark = true) (tried : List Candidate) :
    (blocks remarks tried).filter Event.isLoaded = [] := by
  refine List.filter_eq_nil_iff.mpr fun e he => ?_
  obtain ⟨c, -, rfl | hc⟩ := mem_blocks_iff.mp he
  · simp [Event.isLoaded]
  · simp [Event.isLoaded_of_isRemark (h c e hc)]

theorem Closes.ending_eq (h : Closes answer tried skipped ending) :
    ending = [] ∨ ∃ a t, ending = [.loaded a t] := by
  cases h with
  | loaded before c => exact .inr ⟨c.attempt, c.target, rfl⟩
  | _ => exact .inl rfl

end Blocks

/-- What is logged of a candidate while it is asked for. -/
def remarks (host : NativeHost) (root : Path) (context : List String) (c : Candidate) : List Event :=
  ((c.attempt.probe [root]).run context host).events

theorem accounts_remarks (host : NativeHost) (root : Path) (context : List String) (c : Candidate) :
    host.Accounts root c.attempt (host.remarks root context c) :=
  host.accounts_probe root c.attempt context

section Walk

variable {host : NativeHost} {root : Path} {context : List String}

theorem alreadyLoaded_notMem_blocks {before : List Candidate}
    (hb : ∀ c ∈ before, host.disk.isThere [root] c.attempt = false) (key : Path) :
    .alreadyLoaded key ∉ blocks (host.remarks root context) before := by
  rw [mem_blocks_iff]
  rintro ⟨c, hc, hkey | hkey⟩
  · cases hkey
  · exact (host.accounts_remarks root context c).alreadyLoaded_notMem (hb c hc) key hkey

/-- The candidate that is there decides what is said to be loaded already. -/
theorem alreadyLoaded_iff_of_present {before : List Candidate} {c : Candidate}
    {answer : Except Failure Binding}
    (hb : ∀ d ∈ before, host.disk.isThere [root] d.attempt = false)
    (hc : host.disk.isThere [root] c.attempt = true)
    (hl : host.Loads (host.disk.artifact? [root] c.attempt) answer
      ((c.attempt.probe [root]).run context host).host) :
    (∃ key, .alreadyLoaded key ∈
        blocks (host.remarks root context) (before ++ [c]) ++ c.closing answer) ↔
      (∃ r, c.settle answer = .ok r) ∧
        ((c.attempt.probe [root]).run context host).host.opened = host.opened := by
  obtain ⟨hit, hh, hremarks⟩ := (host.accounts_remarks root context c).exists_hits hc
  have hmem (key : Path) : .alreadyLoaded key ∈
      blocks (host.remarks root context) (before ++ [c]) ++ c.closing answer ↔
        .alreadyLoaded key ∈ hit := by
    have hbefore : .alreadyLoaded key ∉ blocks (host.remarks root context) before :=
      alreadyLoaded_notMem_blocks hb key
    have hclosing : .alreadyLoaded key ∉ c.closing answer := by
      cases answer <;> simp [Candidate.closing]
    have hlast : .alreadyLoaded key ∈ blocks (host.remarks root context) [c] ↔
        .alreadyLoaded key ∈ hit := by
      simpa [mem_blocks_iff] using hremarks key
    rw [blocks, List.flatMap_append, ← blocks, ← blocks, List.mem_append, List.mem_append, hlast]
    simp [hbefore, hclosing]
  have hsettle : (∃ r, c.settle answer = .ok r) ↔ ∃ b, answer = .ok b := by
    cases answer <;> simp [Candidate.settle]
  simp only [hmem, hsettle]
  exact hh.kept_iff hl

theorem closes_settle (before : List Candidate) (c : Candidate) (answer : Except Failure Binding)
    (skipped : List Candidate) : Closes (c.settle answer) (before ++ [c]) skipped (c.closing answer) := by
  cases answer with
  | ok binding => exact .loaded before c binding skipped
  | error cause => exact .broken before c cause skipped

theorem closes_walk (host : NativeHost) (root : Path) (context : List String)
    (candidates : List Candidate) :
    let o := (walk [root] [] candidates).run context host
    ∃ tried skipped ending, candidates = tried ++ skipped ∧
      o.events = blocks (host.remarks root context) tried ++ ending ∧
      Closes o.value tried skipped ending ∧
      ((∃ key, .alreadyLoaded key ∈ o.events) ↔
        (∃ r, o.value = .ok r) ∧ o.host.opened = host.opened) := by
  intro o
  rcases all_absent_or_first_present host.disk [root] candidates with ha | ⟨i, c, hi, hc, hb⟩
  · have ho := run_walk_append (fun c hc => probe_absent (ha c hc) context) [] []
    rw [List.append_nil, run_walk_nil] at ho
    have hevents : o.events = blocks (host.remarks root context) candidates ++ [] :=
      congrArg Outcome.events ho
    have hvalue : o.value = .error (.bindingNotFound (candidates.map fun c => c.attempt.text)) :=
      congrArg Outcome.value ho
    refine ⟨candidates, [], [], (List.append_nil _).symm, hevents, hvalue ▸ .notFound candidates, ?_⟩
    rw [hevents, List.append_nil, hvalue]
    simpa using alreadyLoaded_notMem_blocks ha
  · obtain ⟨answer, hv, hl⟩ := probe_present hc context
    have ho := run_walk_append (fun d hd => probe_absent (hb d hd) context) []
      (c :: candidates.drop (i + 1))
    rw [run_walk_present hv, ← (split_at_index hi).1] at ho
    have hevents : o.events =
        blocks (host.remarks root context) (candidates.take i ++ [c]) ++ c.closing answer := by
      simp only [o, ho, blocks, List.flatMap_append, List.flatMap_singleton, List.append_assoc]
      rfl
    have hvalue : o.value = c.settle answer := congrArg Outcome.value ho
    have hhost : o.host = ((c.attempt.probe [root]).run context host).host :=
      congrArg Outcome.host ho
    refine ⟨candidates.take i ++ [c], candidates.drop (i + 1), c.closing answer, ?_, hevents,
      hvalue ▸ closes_settle _ c answer _, ?_⟩
    · rw [List.append_assoc]
      exact (split_at_index hi).1
    · rw [hevents, hvalue, hhost]
      exact alreadyLoaded_iff_of_present hb hc hl

end Walk

section Resolve

variable (host : NativeHost) (s : Search) (catalog : Catalog) (context : List String)

theorem closes_resolve :
    let pair := s.pairOn host
    let o := (s.resolve catalog).run context host
    ∃ tried skipped ending,
      (match s.plan catalog pair.1 pair.2 with
        | .ok plan => plan
        | .error _ => []) = tried ++ skipped ∧
      o.events =
        blocks (host.remarks s.dir (context ++ [Search.purpose pair.1 pair.2])) tried ++ ending ∧
      Closes o.value tried skipped ending ∧
      ((∃ key, .alreadyLoaded key ∈ o.events) ↔
        (∃ r, o.value = .ok r) ∧ o.host.opened = host.opened) := by
  dsimp only
  cases hp : s.plan catalog (s.pairOn host).1 (s.pairOn host).2 with
  | error e =>
    obtain rfl := eq_unsupported_of_plan hp
    rw [run_resolve_of_error context host hp]
    exact ⟨[], [], [], rfl, rfl, .unsupported _ _, by simp⟩
  | ok candidates =>
    rw [run_resolve_of_ok context host hp]
    exact closes_walk host s.dir _ candidates

/-- The log of a search is a block for each candidate that is tried, in their order: all there are if
none is found, none at all without any, and otherwise those up to the one that the outcome names. Each
block opens with the candidate and goes on with what the host has to say of it. Behind the blocks
there is one line more if a binding is loaded, and that binding is said to be loaded already if no
library was opened for it. -/
theorem log_tells_what_was_tried :
    let pair := s.target.getD (hostPlatform, hostArch)
    let o := (s.resolve catalog).run context host
    let plan := match s.plan catalog pair.1 pair.2 with
      | .ok plan => plan
      | .error _ => []
    ∃ (tried skipped : List Candidate) (remarks : Candidate → List Event) (ending : List Event),
      plan = tried ++ skipped ∧
      (∀ c ∈ tried, host.Accounts s.dir c.attempt (remarks c)) ∧
      o.events = (tried.flatMap fun c => .trying c.attempt c.target :: remarks c) ++ ending ∧
      Closes o.value tried skipped ending ∧
      o.events.filterMap Event.tried? = tried ∧
      o.events.filter Event.isLoaded = ending ∧
      ((∃ key, .alreadyLoaded key ∈ o.events) ↔
        (∃ r, o.value = .ok r) ∧ o.host.opened = host.opened) ∧
      ∀ e ∈ o.events, e.Reads e.level e.message := by
  intro pair o plan
  obtain ⟨tried, skipped, ending, hplan, hevents, hcloses, hkept⟩ :=
    closes_resolve host s catalog context
  have haccounts := host.accounts_remarks s.dir
    (context ++ [Search.purpose (s.pairOn host).1 (s.pairOn host).2])
  have hremark (c : Candidate) := (haccounts c).isRemark
  change o.events = blocks _ tried ++ ending at hevents
  refine ⟨tried, skipped, _, ending, hplan, fun c _ => haccounts c, hevents, hcloses, ?_, ?_,
    hkept, fun e he => ?_⟩
  · rw [hevents, List.filterMap_append, tried_blocks hremark]
    rcases hcloses.ending_eq with rfl | ⟨a, t, rfl⟩ <;> simp [Event.tried?]
  · rw [hevents, List.filter_append, loaded_blocks hremark]
    rcases hcloses.ending_eq with rfl | ⟨a, t, rfl⟩ <;> simp [Event.isLoaded]
  · rw [hevents, List.mem_append, mem_blocks_iff] at he
    obtain ⟨c, -, rfl | hc⟩ | he := he
    · exact .trying c.attempt c.target
    · exact Event.reads_of_isRemark (hremark c e hc)
    · rcases hcloses.ending_eq with rfl | ⟨a, t, rfl⟩
      · exact absurd he List.not_mem_nil
      · obtain rfl := List.mem_singleton.mp he
        exact .loaded a t

end Resolve

/-- The first build is missing; the second is installed, under another name, and loaded already. -/
example :
    let main : Path := ⟨"/node_modules/addon-linux-x64-musl/lib.so"⟩
    let disk : Disk :=
      { isFile := fun p => p = ⟨"/node_modules/addon-linux-x64-musl/package.json"⟩ || p = main
        read := fun _ => .ok ("[\"other\",\"lib.so\"]".toList.map ascii)
        canonical := fun p => .ok p
        library := fun _ => none }
    let host : NativeHost := ⟨disk, [(main, ⟨0, main, ⟨[]⟩⟩)], []⟩
    let catalog := Catalog.ofTriples [⟨"linux", "x64", some "gnu", "x86_64-unknown-linux-gnu"⟩,
      ⟨"linux", "x64", some "musl", "x86_64-unknown-linux-musl"⟩]
    let s : Search := { dir := ⟨"/"⟩, family := some ⟨"addon"⟩ }
    ((s.resolve catalog).run [] host).events.map (fun e => (e.level.name, e.message)) = [
      ("debug", "trying addon-linux-x64-gnu for linux-x64-gnu (x86_64-unknown-linux-gnu)"),
      ("trace", "looking for addon-linux-x64-gnu in /node_modules/addon-linux-x64-gnu"),
      ("debug", "trying addon-linux-x64-musl for linux-x64-musl (x86_64-unknown-linux-musl)"),
      ("trace", "looking for addon-linux-x64-musl in /node_modules/addon-linux-x64-musl"),
      ("debug", "found package addon-linux-x64-musl at /node_modules/addon-linux-x64-musl"),
      ("warn", "/node_modules/addon-linux-x64-musl is installed as addon-linux-x64-musl, " ++
        "but calls itself other"),
      ("debug", "/node_modules/addon-linux-x64-musl/lib.so already loaded"),
      ("info", "loaded native binding addon-linux-x64-musl (x86_64-unknown-linux-musl)")] := by
  decide +kernel

end NativeHost

end Prebuilt
