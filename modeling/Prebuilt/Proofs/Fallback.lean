import Prebuilt.Host.Rehearsal
import Prebuilt.Proofs.Candidates
import Prebuilt.Proofs.TwoHosts

/-! What a search does not depend on. Nothing is settled by candidates after the first one that is
there, by files that are no candidate's, or by things of the kind that is not searched for. -/

namespace Prebuilt

namespace FixedHost

variable {β : Type}

/-- What a host says about an attempt: nothing if it is not there, else how loading it goes. -/
def answer (h : FixedHost β) (roots : List Path) (a : Attempt) : Option (Except Failure β) :=
  if h.isPresent roots a then some (h.load roots a) else none

theorem isPresent_of_answer {h : FixedHost β} {roots : List Path} {a : Attempt}
    {loaded : Except Failure β} (ha : h.answer roots a = some loaded) :
    h.isPresent roots a = true ∧ h.load roots a = loaded := by
  by_cases hp : h.isPresent roots a = true
  · rw [answer, if_pos hp] at ha
    exact ⟨hp, Option.some.inj ha⟩
  · rw [answer, if_neg hp] at ha
    simp at ha

theorem not_isPresent_of_answer {h : FixedHost β} {roots : List Path} {a : Attempt}
    (ha : h.answer roots a = none) : h.isPresent roots a = false := by
  apply Bool.eq_false_iff.mpr
  intro hp
  simp [answer, hp] at ha

theorem answer_file_congr {h h' : FixedHost β} {path : Path} (hf : h.isFile path = h'.isFile path)
    (hl : h.loadFile path = h'.loadFile path) (roots : List Path) :
    h.answer roots (.file path) = h'.answer roots (.file path) := by
  have hp : h.isPresent roots (.file path) = h'.isPresent roots (.file path) := hf
  have ho : h.load roots (.file path) = h'.load roots (.file path) := hl
  rw [answer, answer, hp, ho]

theorem answer_package_congr {h h' : FixedHost β} {name : PackageName} {roots : List Path}
    (hl : h.loadPackage name roots = h'.loadPackage name roots) :
    h.answer roots (.package name) = h'.answer roots (.package name) := by
  have hp : h.isPresent roots (.package name) = h'.isPresent roots (.package name) := by
    rw [isPresent, isPresent, hl]
  have ho : h.load roots (.package name) = h'.load roots (.package name) := by
    rw [load, load, hl]
  rw [answer, answer, hp, ho]

/-- Agreement on the candidates before and at the first one that is there is all a walk needs. -/
theorem agreeInTurn {h h' : FixedHost β} {roots : List Path} {candidates : List Candidate}
    (ha : ∀ i c, candidates[i]? = some c →
      (∀ d ∈ candidates.take i, h.isPresent roots d.attempt = false) →
      h.answer roots c.attempt = h'.answer roots c.attempt) (context : List String) :
    AgreeInTurn id id roots context candidates h h' := by
  induction candidates with
  | nil => exact .exhausted
  | cons c rest ih =>
    have hc := ha 0 c rfl (by simp)
    cases hs : h.answer roots c.attempt with
    | some loaded =>
      obtain ⟨hp, hl⟩ := isPresent_of_answer hs
      obtain ⟨hp', hl'⟩ := isPresent_of_answer (hc.symm.trans hs)
      refine .present (congrArg Outcome.value (run_probe_present hp context))
        (congrArg Outcome.value (run_probe_present hp' context)) ?_
      rw [hl, hl']
    | none =>
      have hp := not_isPresent_of_answer hs
      have hp' := not_isPresent_of_answer (hc.symm.trans hs)
      have hrest : AgreeInTurn id id roots context rest h h' := by
        refine ih fun i d hd hb => ha (i + 1) d hd fun e he => ?_
        rcases List.mem_cons.mp he with rfl | he
        · exact hp
        · exact hb e he
      refine .absent (congrArg Outcome.value (run_probe_absent hp context))
        (congrArg Outcome.value (run_probe_absent hp' context)) ?_
      rw [run_probe_absent hp, run_probe_absent hp']
      exact hrest

end FixedHost

/-- Something done to what a rehearsal holds. -/
inductive Edit where
  | add (subject : Attempt)
  | remove (subject : Attempt)
  | spoil (subject : Attempt) (cause : Failure)

def Edit.subject : Edit → Attempt
  | add a => a
  | remove a => a
  | spoil a _ => a

theorem Path.same_of_same_same {p q r : Path} (h : p.same q = true) (h' : p.same r = true) :
    q.same r = true := by
  simp only [Path.same, beq_iff_eq] at *
  exact h.symm.trans h'

namespace Rehearsal

def edit (r : Rehearsal) : Edit → Rehearsal
  | .add (.file path) => r.addFile path
  | .add (.package name) => r.addPackage name.text
  | .remove (.file path) => r.removeFile path
  | .remove (.package name) => r.removePackage name.text
  | .spoil (.file path) cause => r.breakFile path cause
  | .spoil (.package name) cause => r.breakPackage name.text cause

def editAll (r : Rehearsal) (edits : List Edit) : Rehearsal := edits.foldl edit r

theorem find_filter_of_imp {α : Type} {p q : α → Bool} (h : ∀ x, q x = true → p x = true)
    (l : List α) : (l.filter p).find? q = l.find? q := by
  rw [List.find?_filter]
  congr 1
  funext x
  cases hq : q x with
  | false => simp
  | true => simp [h x hq]

theorem any_filter_of_imp {α : Type} {p q : α → Bool} (h : ∀ x, q x = true → p x = true)
    (l : List α) : (l.filter p).any q = l.any q := by
  rw [List.any_filter]
  congr 1
  funext x
  cases hq : q x with
  | false => simp
  | true => simp [h x hq]

variable (r : Rehearsal)

theorem answer_edit_file {path other : Path} (h : path.same other = false) {e : Edit}
    (he : e.subject = .file path) (roots : List Path) :
    (r.edit e).host.answer roots (.file other) = r.host.answer roots (.file other) := by
  cases e with
  | add a =>
    obtain rfl : a = .file path := he
    apply FixedHost.answer_file_congr
    · simp [edit, host, addFile, h]
    · rfl
  | remove a =>
    obtain rfl : a = .file path := he
    have hkept (p : Path) (hp : p.same other = true) : (!p.same path) = true := by
      rw [Bool.not_eq_true', Bool.eq_false_iff]
      intro hpath
      simp [Path.same_of_same_same hpath hp] at h
    apply FixedHost.answer_file_congr
    · exact any_filter_of_imp hkept r.files
    · simp only [edit, host, removeFile]
      rw [find_filter_of_imp fun b hb => hkept b.1 hb]
  | spoil a cause =>
    obtain rfl : a = .file path := he
    apply FixedHost.answer_file_congr
    · simp [edit, host, breakFile, h]
    · simp [edit, host, breakFile, h]

theorem answer_edit_package {name other : PackageName} (h : name ≠ other) {e : Edit}
    (he : e.subject = .package name) (roots : List Path) :
    (r.edit e).host.answer roots (.package other) = r.host.answer roots (.package other) := by
  have ht : name.text ≠ other.text := fun ht => h (congrArg PackageName.mk ht)
  apply FixedHost.answer_package_congr
  cases e with
  | add a =>
    obtain rfl : a = .package name := he
    simp [edit, host, addPackage, ht.symm]
  | remove a =>
    obtain rfl : a = .package name := he
    have hbroken := find_filter_of_imp (p := fun b : String × Failure => b.1 != name.text)
      (q := fun b => b.1 == other.text) (fun b hb => by simp [eq_of_beq hb, ht.symm])
      r.brokenPackages
    have hthere : (r.packages.filter (· != name.text)).contains other.text =
        r.packages.contains other.text := by
      simp [List.contains_eq_mem, ht.symm]
    simp only [edit, host, removePackage, hbroken, hthere]
  | spoil a cause =>
    obtain rfl : a = .package name := he
    simp [edit, host, breakPackage, ht]

theorem files_edit_package {name : PackageName} {e : Edit} (he : e.subject = .package name) :
    (r.edit e).host.isFile = r.host.isFile ∧ (r.edit e).host.loadFile = r.host.loadFile := by
  cases e <;> obtain rfl : _ = Attempt.package name := he <;> exact ⟨rfl, rfl⟩

theorem packages_edit_file {path : Path} {e : Edit} (he : e.subject = .file path) :
    (r.edit e).host.loadPackage = r.host.loadPackage := by
  cases e <;> obtain rfl : _ = Attempt.file path := he <;> rfl

/-- An edit is felt only at the place of its subject. -/
theorem answer_edit {e : Edit} {a : Attempt} (h : e.subject.same a = false)
    (roots : List Path) : (r.edit e).host.answer roots a = r.host.answer roots a := by
  cases hs : e.subject with
  | file path =>
    cases a with
    | file other => exact r.answer_edit_file (by simpa [hs, Attempt.same] using h) hs roots
    | package name => exact FixedHost.answer_package_congr (by rw [r.packages_edit_file hs])
  | package name =>
    cases a with
    | file path =>
      obtain ⟨hf, hl⟩ := r.files_edit_package hs
      exact FixedHost.answer_file_congr (congrFun hf path) (congrFun hl path) roots
    | package other =>
      exact r.answer_edit_package (by simpa [hs, Attempt.same] using h) hs roots

theorem pair_edit (e : Edit) :
    (r.edit e).platform = r.platform ∧ (r.edit e).arch = r.arch := by
  cases e with
  | add a => cases a <;> exact ⟨rfl, rfl⟩
  | remove a => cases a <;> exact ⟨rfl, rfl⟩
  | spoil a cause => cases a <;> exact ⟨rfl, rfl⟩

theorem answer_editAll {edits : List Edit} {a : Attempt}
    (h : ∀ e ∈ edits, e.subject.same a = false) (roots : List Path) :
    (r.editAll edits).host.answer roots a = r.host.answer roots a := by
  induction edits generalizing r with
  | nil => rfl
  | cons e rest ih =>
    calc
      ((r.edit e).editAll rest).host.answer roots a = (r.edit e).host.answer roots a :=
        ih (r.edit e) fun d hd => h d (List.mem_cons_of_mem e hd)
      _ = r.host.answer roots a := r.answer_edit (h e List.mem_cons_self) roots

theorem pair_editAll (edits : List Edit) :
    (r.editAll edits).platform = r.platform ∧ (r.editAll edits).arch = r.arch := by
  induction edits generalizing r with
  | nil => exact ⟨rfl, rfl⟩
  | cons e rest ih =>
    obtain ⟨hp, ha⟩ := ih (r.edit e)
    obtain ⟨hp', ha'⟩ := r.pair_edit e
    exact ⟨hp.trans hp', ha.trans ha'⟩

end Rehearsal

/-- Things that a search for these candidates does not come to: a candidate after one that is there,
unless it is a file at the place of that one or of one before it; a file at the place of no
candidate; and everything of the kind that is not searched for. -/
inductive Unreached {β : Type} (s : Search) (host : FixedHost β) (candidates : List Candidate) :
    Attempt → Prop where
  | lower {i j : Nat} {c d : Candidate} (hc : candidates[i]? = some c)
      (hthere : host.isPresent [s.dir] c.attempt = true) (hij : i < j)
      (hd : candidates[j]? = some d)
      (hplace : ∀ path, d.attempt = .file path →
        ∀ b ∈ candidates.take (i + 1), (Attempt.file path).same b.attempt = false) :
      Unreached s host candidates d.attempt
  | elsewhere {path : Path} (h : ∀ c ∈ candidates, (Attempt.file path).same c.attempt = false) :
      Unreached s host candidates (.file path)
  | package {name : PackageName} (h : s.family = none) :
      Unreached s host candidates (.package name)
  | file {path : Path} (h : s.family.isSome) : Unreached s host candidates (.file path)

/-- No candidate up to the first one that is there lies where something unreached does. -/
theorem Unreached.same_eq_false {β : Type} {s : Search} {host : FixedHost β} {rows : List Triple}
    {platform arch : String} {candidates : List Candidate} {a : Attempt}
    (hp : s.plan (.ofTriples rows) platform arch = .ok candidates)
    (h : Unreached s host candidates a) {k : Nat} {b : Candidate} (hb : candidates[k]? = some b)
    (habsent : ∀ d ∈ candidates.take k, host.isPresent [s.dir] d.attempt = false) :
    a.same b.attempt = false := by
  have hmem := List.mem_of_getElem? hb
  cases h with
  | @lower i j c d hc hthere hij hd hplace =>
    have hki : k ≤ i := by
      by_contra hik
      have hc' : (candidates.take k)[i]? = some c := by rw [List.getElem?_take, if_pos (by omega), hc]
      have hno := habsent c (List.mem_of_getElem? hc')
      simp [hthere] at hno
    cases hs : s.family with
    | none =>
      have hbefore : (candidates.take (i + 1))[k]? = some b := by
        rw [List.getElem?_take, if_pos (by omega), hb]
      have hfile := attempt_eq_file_of_mem_plan hp hs (List.mem_of_getElem? hd)
      rw [hfile]
      exact hplace _ hfile b (List.mem_of_getElem? hbefore)
    | some family =>
      have hdp := attempt_eq_package_of_mem_plan hp hs (List.mem_of_getElem? hd)
      have hbp := attempt_eq_package_of_mem_plan hp hs hmem
      rw [hdp, hbp, Attempt.same, beq_eq_false_iff_ne]
      intro hn
      -- The packages of different builds differ in name, so the two candidates are one.
      have hlt : j < (candidates.map fun c => c.attempt).length := by
        rw [List.length_map]
        exact (List.getElem?_eq_some_iff.mp hd).1
      have hjk : j = k := (List.getElem?_inj hlt (nodup_packages hp hs)).mp
        (by rw [List.getElem?_map, List.getElem?_map, hd, hb, Option.map_some, Option.map_some, hdp,
          hbp, hn])
      omega
  | elsewhere h => exact h b hmem
  | @package name hs =>
    rw [attempt_eq_file_of_mem_plan hp hs hmem]
    rfl
  | @file path hs =>
    obtain ⟨family, hs⟩ := Option.isSome_iff_exists.mp hs
    rw [attempt_eq_package_of_mem_plan hp hs hmem]
    rfl

/-- Two searches that end alike after the same calls. -/
def SameCourse {η η' β : Type} [Host η β] [Host η' β] (s : Search) (catalog : Catalog)
    (context : List String) (host : η) (host' : η') : Prop :=
  let o := (s.resolve catalog).run context host
  let o' := (s.resolve catalog).run context host'
  o.value = o'.value ∧ o.calls = o'.calls

theorem sameCourse_of_agreeInTurn {η η' β : Type} [Host η β] [Host η' β] {s : Search}
    {catalog : Catalog} {context : List String} {host : η} {host' : η'}
    (hp : Host.platform host = Host.platform host') (ha : Host.arch host = Host.arch host')
    (h : ∀ candidates, s.plan catalog (s.pairOn host).1 (s.pairOn host).2 = .ok candidates →
      AgreeInTurn id id [s.dir] (context ++ [Search.purpose (s.pairOn host).1 (s.pairOn host).2])
        candidates host host') : SameCourse s catalog context host host' := by
  have hpair : s.pairOn host = s.pairOn host' := by rw [Search.pairOn, Search.pairOn, hp, ha]
  obtain ⟨hv, hc⟩ := resolve_of_agreeInTurn hpair h
  have hid : (Except.map (Resolved.map id) : Except ResolveError (Resolved β) → _) = id := by
    funext answer
    cases answer <;> rfl
  rw [hid] at hv
  exact ⟨hv, hc⟩

/-- A search takes the same course on two hosts that report one pair and agree about the candidates up
to and including the first one that is there. So nothing that is done to what is unreached changes
its result or its calls. -/
theorem outcome_rests_on_first_present {η η' β : Type} [Host η β] [Host η' β] (s : Search)
    (context : List String) :
    (∀ (catalog : Catalog) (host : η) (host' : η'),
      Host.platform host = Host.platform host' → Host.arch host = Host.arch host' →
      (∀ candidates, s.plan catalog (s.pairOn host).1 (s.pairOn host).2 = .ok candidates →
        AgreeInTurn id id [s.dir]
          (context ++ [Search.purpose (s.pairOn host).1 (s.pairOn host).2])
          candidates host host') →
      SameCourse s catalog context host host') ∧
    (∀ (catalog : Catalog) (h h' : FixedHost β), h.platform = h'.platform → h.arch = h'.arch →
      (∀ candidates, s.plan catalog (s.pairOn h).1 (s.pairOn h).2 = .ok candidates →
        ∀ i c, candidates[i]? = some c →
          (∀ d ∈ candidates.take i, h.isPresent [s.dir] d.attempt = false) →
          h.answer [s.dir] c.attempt = h'.answer [s.dir] c.attempt) →
      SameCourse s catalog context h h') ∧
    ∀ (rows : List Triple) (r : Rehearsal) (edits : List Edit),
      (∀ candidates,
        s.plan (.ofTriples rows) (s.pairOn r.host).1 (s.pairOn r.host).2 = .ok candidates →
        ∀ e ∈ edits, Unreached s r.host candidates e.subject) →
      SameCourse s (.ofTriples rows) context r.host (r.editAll edits).host := by
  refine ⟨fun catalog host host' hp ha h => sameCourse_of_agreeInTurn hp ha h,
    fun catalog h h' hp ha hanswers => ?_, fun rows r edits hedits => ?_⟩
  · exact sameCourse_of_agreeInTurn hp ha fun candidates hplan =>
      FixedHost.agreeInTurn (hanswers candidates hplan) _
  · obtain ⟨hp, ha⟩ := r.pair_editAll edits
    refine sameCourse_of_agreeInTurn hp.symm ha.symm fun candidates hplan => ?_
    refine FixedHost.agreeInTurn (fun k b hb habsent => ?_) _
    refine (r.answer_editAll (fun e he => ?_) [s.dir]).symm
    exact (hedits candidates hplan e he).same_eq_false hplan hb habsent

/-- With the first of three builds in place, the search does not notice that the third one is spoiled,
that a file goes missing whose name is none of the three, or that a package turns up. -/
theorem gnu_build_outlives_edits :
    let rows : List Triple := [⟨"linux", "x64", some "gnu", "x86_64-unknown-linux-gnu"⟩,
      ⟨"linux", "x64", some "gnux32", "x86_64-unknown-linux-gnux32"⟩,
      ⟨"linux", "x64", some "musl", "x86_64-unknown-linux-musl"⟩]
    let s : Search := { dir := ⟨"app"⟩ }
    let r : Rehearsal :=
      ⟨"linux", "x64", [⟨"app//index.linux-x64-gnu.so"⟩, ⟨"app/notes"⟩], [], [], []⟩
    ∃ candidates c d,
      s.plan (.ofTriples rows) (s.pairOn r.host).1 (s.pairOn r.host).2 = .ok candidates ∧
      candidates[0]? = some c ∧ r.host.isPresent [s.dir] c.attempt = true ∧
      candidates[2]? = some d ∧
      SameCourse s (.ofTriples rows) ["starting"] r.host
        (r.editAll [.spoil d.attempt ⟨"no library", []⟩, .remove (.file ⟨"app/./notes"⟩),
          .add (.package ⟨"index-linux-x64-gnu"⟩)]).host := by
  intro rows s r
  obtain ⟨candidates, c, d, hplan, hc, hthere, hd, hplace, helsewhere⟩ : ∃ candidates c d,
      s.plan (.ofTriples rows) (s.pairOn r.host).1 (s.pairOn r.host).2 = .ok candidates ∧
      candidates[0]? = some c ∧ r.host.isPresent [s.dir] c.attempt = true ∧
      candidates[2]? = some d ∧
      (∀ b ∈ candidates.take 1, d.attempt.same b.attempt = false) ∧
      ∀ b ∈ candidates, (Attempt.file ⟨"app/./notes"⟩).same b.attempt = false :=
    ⟨_, _, _, rfl, rfl, by decide, rfl, by decide, by decide⟩
  refine ⟨candidates, c, d, hplan, hc, hthere, hd, ?_⟩
  refine (@outcome_rests_on_first_present (FixedHost Attempt) (FixedHost Attempt) Attempt _ _ s
    ["starting"]).2.2 rows r _ fun candidates' hplan' e he => ?_
  obtain rfl : candidates = candidates' := Except.ok.inj (hplan.symm.trans hplan')
  simp only [List.mem_cons, List.not_mem_nil, or_false] at he
  rcases he with rfl | rfl | rfl
  · exact .lower hc hthere (by decide) hd fun path hpath => hpath ▸ hplace
  · exact .elsewhere helsewhere
  · exact .package rfl

/-- Candidates may lie at one place under two names. Then the lower one cannot be removed without the
higher one, which is why such files are not unreached. -/
theorem removal_of_lower_candidate_takes_higher :
    let rows : List Triple := [⟨"linux", "x64", some "v1//gnu", "x86_64-v1-linux-gnu"⟩,
      ⟨"linux", "x64", some "v1/gnu", "x86_64-v1-unknown-linux-gnu"⟩]
    let s : Search := { dir := ⟨"app"⟩ }
    let r : Rehearsal := ⟨"linux", "x64", [⟨"app/index.linux-x64-v1//gnu.so"⟩], [], [], []⟩
    ∃ candidates c d,
      s.plan (.ofTriples rows) (s.pairOn r.host).1 (s.pairOn r.host).2 = .ok candidates ∧
      candidates[0]? = some c ∧ r.host.isPresent [s.dir] c.attempt = true ∧
      candidates[1]? = some d ∧
      ¬ SameCourse s (.ofTriples rows) [] r.host (r.edit (.remove d.attempt)).host := by
  intro rows s r
  refine ⟨_, _, _, rfl, rfl, by decide, rfl, fun h => ?_⟩
  have hv := congrArg (fun o => o.toOption.map fun found => found.attempt) h.1
  revert hv
  decide

end Prebuilt
