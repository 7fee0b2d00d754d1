import Prebuilt.Proofs.FirstPresent

/-! One search on two hosts. While the hosts say alike about the candidates in turn, both walks take
the same way, and what either would say about candidates that are not reached plays no part. -/

namespace Prebuilt

variable {η η' β β' γ : Type} [Host η β] [Host η' β']

def Resolved.map (f : β → γ) (r : Resolved β) : Resolved γ := ⟨f r.binding, r.target, r.attempt⟩

theorem Presence.ofLoad_ne_absent (answer : Except Failure β) : Presence.ofLoad answer ≠ .absent := by
  cases answer <;> simp [Presence.ofLoad]

theorem calls_probe_absent {a : Attempt} {roots : List Path} {context : List String} {host : η}
    (h : ((a.probe roots).run context host).value = .absent) :
    ((a.probe roots).run context host).calls = [⟨a.inquiry roots, context⟩] := by
  cases a with
  | package name => rw [run_probe_package]; rfl
  | file path =>
    cases hf : (Host.isFile host path).value with
    | false => rw [run_probe_file_absent hf]; rfl
    | true =>
      rw [run_probe_file_present hf] at h
      exact absurd h (Presence.ofLoad_ne_absent _)

/-- Only what is there is opened. -/
theorem calls_probe_present {a : Attempt} {roots : List Path} {context : List String} {host : η}
    {answer : Except Failure β}
    (h : ((a.probe roots).run context host).value = .ofLoad answer) :
    ((a.probe roots).run context host).calls =
      ⟨a.inquiry roots, context⟩ :: a.opening.map (⟨·, context⟩) := by
  cases a with
  | package name => rw [run_probe_package]; rfl
  | file path =>
    cases hf : (Host.isFile host path).value with
    | false =>
      rw [run_probe_file_absent hf] at h
      exact absurd h.symm (Presence.ofLoad_ne_absent answer)
    | true => rw [run_probe_file_present hf]; rfl

/-- Two hosts that say alike about each candidate in turn, up to and including the first one that is
there. What is loaded is compared by what `f` and `g` tell of it. -/
inductive AgreeInTurn (f : β → γ) (g : β' → γ) (roots : List Path) (context : List String) :
    List Candidate → η → η' → Prop where
  | exhausted {host : η} {host' : η'} : AgreeInTurn f g roots context [] host host'
  | absent {c : Candidate} {rest : List Candidate} {host : η} {host' : η'}
      (h : ((c.attempt.probe roots).run context host).value = .absent)
      (h' : ((c.attempt.probe roots).run context host').value = .absent)
      (hrest : AgreeInTurn f g roots context rest ((c.attempt.probe roots).run context host).host
        ((c.attempt.probe roots).run context host').host) :
      AgreeInTurn f g roots context (c :: rest) host host'
  | present {c : Candidate} {rest : List Candidate} {host : η} {host' : η'}
      {answer : Except Failure β} {answer' : Except Failure β'}
      (h : ((c.attempt.probe roots).run context host).value = .ofLoad answer)
      (h' : ((c.attempt.probe roots).run context host').value = .ofLoad answer')
      (he : answer.map f = answer'.map g) : AgreeInTurn f g roots context (c :: rest) host host'

theorem Candidate.map_settle (c : Candidate) (f : β → γ) (answer : Except Failure β) :
    (c.settle answer).map (Resolved.map f) = c.settle (answer.map f) := by
  cases answer <;> rfl

/-- The two walks are taken together, candidate by candidate. -/
theorem AgreeInTurn.walk {f : β → γ} {g : β' → γ} {roots : List Path} {context : List String}
    {candidates : List Candidate} {host : η} {host' : η'}
    (h : AgreeInTurn f g roots context candidates host host') (attempted : List String) :
    let o := (walk roots attempted candidates).run context host
    let o' := (walk roots attempted candidates).run context host'
    o.value.map (Resolved.map f) = o'.value.map (Resolved.map g) ∧ o.calls = o'.calls := by
  dsimp only
  induction h generalizing attempted with
  | exhausted => exact ⟨rfl, rfl⟩
  | @absent c rest host host' h h' _ ih =>
    obtain ⟨hv, hc⟩ := ih (attempted ++ [c.attempt.text])
    rw [run_walk_absent h, run_walk_absent h', calls_probe_absent h, calls_probe_absent h']
    exact ⟨hv, congrArg _ hc⟩
  | @present c rest host host' answer answer' h h' he =>
    rw [run_walk_present h, run_walk_present h', calls_probe_present h, calls_probe_present h']
    refine ⟨?_, rfl⟩
    rw [Candidate.map_settle, Candidate.map_settle, he]

theorem resolve_of_agreeInTurn {f : β → γ} {g : β' → γ} {s : Search} {catalog : Catalog}
    {context : List String} {host : η} {host' : η'} (hp : s.pairOn host = s.pairOn host')
    (h : ∀ candidates, s.plan catalog (s.pairOn host).1 (s.pairOn host).2 = .ok candidates →
      AgreeInTurn f g [s.dir] (context ++ [Search.purpose (s.pairOn host).1 (s.pairOn host).2])
        candidates host host') :
    let o := (s.resolve catalog).run context host
    let o' := (s.resolve catalog).run context host'
    o.value.map (Resolved.map f) = o'.value.map (Resolved.map g) ∧ o.calls = o'.calls := by
  dsimp only
  cases hplan : s.plan catalog (s.pairOn host).1 (s.pairOn host).2 with
  | error e =>
    rw [run_resolve_of_error context host hplan, run_resolve_of_error context host' (hp ▸ hplan)]
    exact ⟨rfl, rfl⟩
  | ok candidates =>
    have hw := (h candidates hplan).walk []
    rw [run_resolve_of_ok context host hplan, run_resolve_of_ok context host' (hp ▸ hplan), ← hp]
    exact ⟨hw.1, congrArg _ hw.2⟩

end Prebuilt
