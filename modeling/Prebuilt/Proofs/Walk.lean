import Prebuilt.Resolution

/-! The walk over candidates on any host. Candidates that are absent and leave the host as it was
are passed over, and the first other one ends the walk. -/

namespace Prebuilt

variable {η β : Type} [Host η β]

/-- What an attempt to load something shows about it, once it is known to be there. -/
def Presence.ofLoad : Except Failure β → Presence β
  | .ok binding => .loaded binding
  | .error cause => .broken cause

def Presence.ofPackage : Except PackageError β → Presence β
  | .ok binding => .loaded binding
  | .error (.notFound _) => .absent
  | .error e => .broken e.failure

def Candidate.settle (c : Candidate) : Except Failure β → Except ResolveError (Resolved β)
  | .ok binding => .ok ⟨binding, c.target, c.attempt⟩
  | .error cause => .error (.resolution c.attempt.text cause)

def Candidate.closing (c : Candidate) : Except Failure β → List Event
  | .ok _ => [.loaded c.attempt c.target]
  | .error _ => []

theorem split_at_index {α : Type} {l : List α} {i : Nat} {a : α} (h : l[i]? = some a) :
    l = l.take i ++ a :: l.drop (i + 1) ∧ l.take (i + 1) = l.take i ++ [a] := by
  have ht : l.take (i + 1) = l.take i ++ [a] := by rw [List.take_add_one, h, Option.toList_some]
  refine ⟨?_, ht⟩
  calc
    l = l.take (i + 1) ++ l.drop (i + 1) := (List.take_append_drop (i + 1) l).symm
    _ = l.take i ++ a :: l.drop (i + 1) := by rw [ht, List.append_assoc, List.singleton_append]

theorem exists_lt_of_mem_take {α : Type} {l : List α} {i : Nat} {a : α} (h : a ∈ l.take i) :
    ∃ k < i, l[k]? = some a := by
  obtain ⟨k, hk⟩ := List.getElem?_of_mem h
  rw [List.getElem?_take] at hk
  split at hk
  · next hlt => exact ⟨k, hlt, hk⟩
  · simp at hk

theorem run_probe_package (name : PackageName) (roots : List Path) (context : List String)
    (host : η) :
    ((Attempt.package name).probe roots).run context host =
      ⟨.ofPackage (Host.loadPackage host name roots).value,
        (Host.loadPackage host name roots).host, [⟨.loadPackage name roots, context⟩],
        (Host.loadPackage host name roots).events⟩ := by
  simp only [Attempt.probe, Session.loadPackage, Session.run_bind, Session.run_ask]
  cases (Host.loadPackage host name roots).value with
  | ok binding => simp [Presence.ofPackage]
  | error e => cases e <;> simp [Presence.ofPackage]

theorem run_probe_file_absent {path : Path} {host : η}
    (h : (Host.isFile host path).value = false) (roots : List Path) (context : List String) :
    ((Attempt.file path).probe roots).run context host =
      ⟨.absent, (Host.isFile host path).host, [⟨.isFile path, context⟩],
        (Host.isFile host path).events⟩ := by
  simp [Attempt.probe, Session.isFile, Session.run_bind, h]

theorem run_probe_file_present {path : Path} {host : η}
    (h : (Host.isFile host path).value = true) (roots : List Path) (context : List String) :
    let looked := Host.isFile host path
    let reply := Host.loadFile looked.host path
    ((Attempt.file path).probe roots).run context host =
      ⟨.ofLoad reply.value, reply.host, [⟨.isFile path, context⟩, ⟨.loadFile path, context⟩],
        looked.events ++ reply.events⟩ := by
  dsimp only
  simp only [Attempt.probe, Session.isFile, Session.loadFile, Session.run_bind, Session.run_ask,
    h, if_true]
  cases (Host.loadFile (Host.isFile host path).host path).value <;> simp [Presence.ofLoad]

section Walk

variable {roots : List Path} {context : List String} {host : η}

theorem run_walk_nil (attempted : List String) :
    (walk roots attempted []).run context host =
      ⟨.error (.bindingNotFound attempted), host, [], []⟩ := rfl

theorem run_walk_absent {c : Candidate}
    (h : ((c.attempt.probe roots).run context host).value = .absent)
    (attempted : List String) (rest : List Candidate) :
    let probe := (c.attempt.probe roots).run context host
    let next := (walk roots (attempted ++ [c.attempt.text]) rest).run context probe.host
    (walk roots attempted (c :: rest)).run context host =
      ⟨next.value, next.host, probe.calls ++ next.calls,
        .trying c.attempt c.target :: probe.events ++ next.events⟩ := by
  simp [walk, Session.run_bind, h]

theorem run_walk_present {c : Candidate} {answer : Except Failure β}
    (h : ((c.attempt.probe roots).run context host).value = .ofLoad answer)
    (attempted : List String) (rest : List Candidate) :
    let probe := (c.attempt.probe roots).run context host
    (walk roots attempted (c :: rest)).run context host =
      ⟨c.settle answer, probe.host, probe.calls,
        .trying c.attempt c.target :: probe.events ++ c.closing answer⟩ := by
  cases answer with
  | ok binding =>
    simp only [Presence.ofLoad] at h
    simp [walk, Session.run_bind, h, Candidate.settle, Candidate.closing]
  | error cause =>
    simp only [Presence.ofLoad] at h
    simp [walk, Session.run_bind, h, Candidate.settle, Candidate.closing]

/-- A candidate that is looked for in vain, on a host that this leaves as it was. -/
def Candidate.Absent (c : Candidate) (roots : List Path) (context : List String) (host : η) :
    Prop :=
  ((c.attempt.probe roots).run context host).value = .absent ∧
    ((c.attempt.probe roots).run context host).host = host

/-- Absent candidates at the front only add to what has been attempted, asked and logged. -/
theorem run_walk_append {before : List Candidate}
    (h : ∀ c ∈ before, c.Absent roots context host) (attempted : List String)
    (rest : List Candidate) :
    let probe := fun c : Candidate => (c.attempt.probe roots).run context host
    let next := (walk roots (attempted ++ before.map fun c => c.attempt.text) rest).run context host
    (walk roots attempted (before ++ rest)).run context host =
      ⟨next.value, next.host, before.flatMap (fun c => (probe c).calls) ++ next.calls,
        before.flatMap (fun c => .trying c.attempt c.target :: (probe c).events) ++
          next.events⟩ := by
  induction before generalizing attempted with
  | nil => simp
  | cons c before ih =>
    have hc := h c List.mem_cons_self
    have hh := ih (fun d hd => h d (List.mem_cons_of_mem c hd)) (attempted ++ [c.attempt.text])
    dsimp only at hh ⊢
    rw [List.cons_append, run_walk_absent hc.1, hc.2, hh]
    simp [List.append_assoc]

end Walk

section Resolve

variable (s : Search) (catalog : Catalog) (context : List String) (host : η)

def Search.pairOn (s : Search) (host : η) : String × String :=
  s.target.getD (Host.platform host, Host.arch host)

/-- The host is asked for its own pair only when the search names none. -/
def Search.pairCalls (s : Search) (context : List String) : List Call :=
  if s.target.isNone then [⟨.platform, context⟩, ⟨.arch, context⟩] else []

theorem run_pair :
    (s.pair : Session η (String × String)).run context host =
      ⟨s.pairOn host, host, s.pairCalls context, []⟩ := by
  cases h : s.target <;>
    simp [Search.pair, Search.pairOn, Search.pairCalls, h, Session.run_bind, Session.platform,
      Session.arch]

theorem run_candidates :
    (s.candidates catalog : Session η (Except ResolveError (List Candidate))).run context host =
      ⟨s.plan catalog (s.pairOn host).1 (s.pairOn host).2, host, s.pairCalls context, []⟩ := by
  simp [Search.candidates, Session.run_bind, run_pair]

variable {s catalog}

theorem run_resolve_of_error {e : ResolveError}
    (h : s.plan catalog (s.pairOn host).1 (s.pairOn host).2 = .error e) :
    (s.resolve catalog).run context host = ⟨.error e, host, s.pairCalls context, []⟩ := by
  simp [Search.resolve, Search.walkPlan, Session.run_bind, run_pair, h]

theorem run_resolve_of_ok {candidates : List Candidate}
    (h : s.plan catalog (s.pairOn host).1 (s.pairOn host).2 = .ok candidates) :
    let purpose := Search.purpose (s.pairOn host).1 (s.pairOn host).2
    let o := (walk [s.dir] [] candidates).run (context ++ [purpose]) host
    (s.resolve catalog).run context host =
      ⟨o.value, o.host, s.pairCalls context ++ o.calls, o.events⟩ := by
  simp [Search.resolve, Search.walkPlan, Session.run_bind, run_pair, h]

end Resolve

end Prebuilt
