import Prebuilt.Host.Rehearsal
import Prebuilt.Proofs.Walk

/-! What is in force while a search runs, and what its report says. Reporting changes nothing but the
form of a failure; everything asked about candidates is asked for the purpose of the search, and
that purpose is the one line by which the report differs from a later one. -/

namespace Prebuilt

variable {η β α γ : Type}

@[simp] theorem mapError_error {ε ε' : Type} (e : ε) (f : ε → ε') :
    (Except.error e : Except ε α).mapError f = .error (f e) := rfl

@[simp] theorem mapError_ok {ε ε' : Type} (a : α) (f : ε → ε') :
    (Except.ok a : Except ε α).mapError f = .ok a := rfl

/-- A question about a candidate, not about the host's own pair. -/
def Question.isProbe : Question → Bool
  | .platform => false
  | .arch => false
  | .isFile _ => true
  | .loadFile _ => true
  | .loadPackage _ _ => true

namespace Session

/-- A session that asks about candidates only, each time with just the messages in force that it was
started with. -/
def Probing (session : Session η α) : Prop :=
  ∀ context host, ∀ c ∈ (session.run context host).calls,
    c.question.isProbe = true ∧ c.context = context

/-- A failure of the session made into a report, with the messages that are in force after it. -/
def reported {ε : Type} (session : Session η (Except ε α)) (tracing : Tracing) :
    Session η (Except (Report ε) α) := do
  match ← session with
  | .ok a => pure (.ok a)
  | .error e => do
    let context ← currentContext
    pure (.error (.new e context tracing))

theorem run_reported {ε : Type} (session : Session η (Except ε α)) (tracing : Tracing)
    (context : List String) (host : η) :
    let o := session.run context host
    (session.reported tracing).run context host =
      ⟨o.value.mapError fun e => .new e context tracing, o.host, o.calls, o.events⟩ := by
  dsimp only
  rw [reported, run_bind]
  cases (session.run context host).value <;> simp [run_bind]

theorem probing_pure (a : α) : (pure a : Session η α).Probing := by
  intro context host c hc
  simp at hc

theorem probing_log (event : Event) : (log event : Session η Unit).Probing := by
  intro context host c hc
  simp at hc

theorem probing_ask {question : Question} (h : question.isProbe = true)
    (answer : η → Reply η α) : (ask question answer).Probing := by
  intro context host c hc
  obtain rfl : c = ⟨question, context⟩ := by simpa using hc
  exact ⟨h, rfl⟩

theorem Probing.bind {session : Session η α} {next : α → Session η γ} (h : session.Probing)
    (hnext : ∀ a, (next a).Probing) : (session >>= next).Probing := by
  intro context host c hc
  rw [run_bind] at hc
  rcases List.mem_append.mp hc with hc | hc
  · exact h context host c hc
  · exact hnext _ context _ c hc

end Session

section Walk

variable [Host η β]

theorem probing_probe (roots : List Path) (a : Attempt) :
    (a.probe roots : Session η (Presence β)).Probing := by
  cases a with
  | package name =>
    refine (Session.probing_ask rfl _).bind fun answer => ?_
    rcases answer with e | binding
    · cases e <;> exact Session.probing_pure _
    · exact Session.probing_pure _
  | file path =>
    refine (Session.probing_ask rfl _).bind fun present => ?_
    cases present with
    | false => exact Session.probing_pure _
    | true =>
      refine (Session.probing_ask rfl _).bind fun answer => ?_
      cases answer <;> exact Session.probing_pure _

theorem probing_walk (roots : List Path) (attempted : List String) (candidates : List Candidate) :
    (walk roots attempted candidates : Session η (Except ResolveError (Resolved β))).Probing := by
  induction candidates generalizing attempted with
  | nil => exact Session.probing_pure _
  | cons c rest ih =>
    refine (Session.probing_log _).bind fun _ => ?_
    refine (probing_probe roots c.attempt).bind fun presence => ?_
    cases presence with
    | absent => exact ih _
    | broken cause => exact Session.probing_pure _
    | loaded binding => exact (Session.probing_log _).bind fun _ => Session.probing_pure _

theorem probing_walkPlan (s : Search) (catalog : Catalog) (platform arch : String) :
    (s.walkPlan catalog platform arch :
      Session η (Except ResolveError (Resolved β))).Probing := by
  unfold Search.walkPlan
  cases s.plan catalog platform arch with
  | error e => exact Session.probing_pure _
  | ok candidates => exact probing_walk _ _ candidates

end Walk

/-- Nobody asks for backtraces. -/
def Tracing.Off (t : Tracing) : Prop := t.asked = none ∨ t.asked = some "0"

theorem Tracing.Off.taken {t : Tracing} (h : t.Off) : t.taken = none := by
  rcases h with h | h <;> simp [Tracing.taken, h]

/-- The title and a line for each cause, then a line for each message in force, innermost first, and
then the backtrace. -/
theorem render_new {ε : Type} [Shown ε] (e : ε) (context : List String) (tracing : Tracing) :
    (Report.new e context tracing).render = (Shown.failure e).text ++
      String.join ((Shown.failure e).causes.map fun cause => "\n  caused by: " ++ cause) ++
      String.join (context.reverse.map fun message => "\n  while " ++ message) ++
      Report.backtraceText tracing.taken := by
  simp [Report.render, Report.title, Report.chain, Report.new, Failure.chain, String.append_assoc]

section Report

variable [Host η β] (s : Search) (catalog : Catalog) (tracing tracing' : Tracing)
  (context : List String) (host : η)

theorem run_resolve :
    let o := (s.walkPlan catalog (s.pairOn host).1 (s.pairOn host).2).run
      (context ++ [Search.purpose (s.pairOn host).1 (s.pairOn host).2]) host
    (s.resolve catalog).run context host =
      ⟨o.value, o.host, s.pairCalls context ++ o.calls, o.events⟩ := by
  simp [Search.resolve, Session.run_bind, run_pair]

theorem run_resolveReport :
    let purpose := Search.purpose (s.pairOn host).1 (s.pairOn host).2
    let o := (s.walkPlan catalog (s.pairOn host).1 (s.pairOn host).2).run (context ++ [purpose]) host
    (s.resolveReport catalog tracing).run context host =
      ⟨o.value.mapError fun e => .new e (context ++ [purpose]) tracing, o.host,
        s.pairCalls context ++ o.calls, o.events⟩ := by
  dsimp only
  rw [Search.resolveReport, Session.run_bind, run_pair]
  dsimp only
  rw [Session.run_within, Session.run_bind]
  cases ((s.walkPlan catalog (s.pairOn host).1 (s.pairOn host).2).run
    (context ++ [Search.purpose (s.pairOn host).1 (s.pairOn host).2]) host).value <;>
    simp [Session.run_bind]

/-- A search that reports runs as one that does not, with every question about candidates asked for
the search's purpose and none of it left in force afterwards. Its report has a line for that purpose,
which one made after the search lacks; either ends with the backtrace if one was asked for where it
was made. -/
theorem report_adds_purpose :
    let plain := (s.resolve catalog).run context host
    let o := (s.resolveReport catalog tracing).run context host
    let pair := s.target.getD (Host.platform host, Host.arch host)
    let purpose := "resolving native binding for " ++ pair.1 ++ "/" ++ pair.2
    o.value = plain.value.mapError (fun e => .new e (context ++ [purpose]) tracing) ∧
    o.host = plain.host ∧ o.calls = plain.calls ∧ o.events = plain.events ∧
    (∃ probes,
      o.calls = (if s.target.isNone then [⟨.platform, context⟩, ⟨.arch, context⟩] else []) ++ probes ∧
      ∀ c ∈ probes, c.question.isProbe = true ∧ c.context = context ++ [purpose]) ∧
    (let noted := do
        let answer ← s.resolveReport catalog tracing
        let now ← Session.currentContext
        pure (answer, now)
      noted.run context host = ⟨(o.value, context), o.host, o.calls, o.events⟩) ∧
    ∀ e, plain.value = .error e →
      let causes := String.join (e.failure.causes.map fun cause => "\n  caused by: " ++ cause)
      let enclosing := String.join (context.reverse.map fun message => "\n  while " ++ message)
      let text := e.message ++ causes ++ "\n  while " ++ purpose ++ enclosing
      let lateText := e.message ++ causes ++ enclosing
      ∃ report late, o.value = .error report ∧
        (((s.resolve catalog).reported tracing').run context host).value = .error late ∧
        report.error = e ∧ late.error = e ∧
        report.render = text ++ Report.backtraceText tracing.taken ∧
        late.render = lateText ++ Report.backtraceText tracing'.taken ∧
        (tracing.Off → report.render = text) ∧ (tracing'.Off → late.render = lateText) := by
  intro plain o pair purpose
  have hplain : plain = _ := run_resolve s catalog context host
  have ho : o = _ := run_resolveReport s catalog tracing context host
  have hv : o.value = plain.value.mapError fun e => .new e (context ++ [purpose]) tracing := by
    rw [ho, hplain]
    rfl
  refine ⟨hv, by rw [ho, hplain], by rw [ho, hplain], by rw [ho, hplain],
    ⟨_, congrArg Outcome.calls ho,
      probing_walkPlan s catalog pair.1 pair.2 (context ++ [purpose]) host⟩, ?_, fun e he => ?_⟩
  · simp [Session.run_bind, o]
  · intro causes enclosing text lateText
    have hreport : (Report.new e (context ++ [purpose]) tracing).render =
        text ++ Report.backtraceText tracing.taken := by
      rw [render_new, List.reverse_concat, List.map_cons, String.join_cons]
      simp only [text, causes, enclosing, String.append_assoc]
      rfl
    have hlate : (Report.new e context tracing').render =
        lateText ++ Report.backtraceText tracing'.taken := render_new e context tracing'
    refine ⟨.new e (context ++ [purpose]) tracing, .new e context tracing', ?_, ?_, rfl, rfl,
      hreport, hlate, fun hoff => ?_, fun hoff => ?_⟩
    · rw [hv, he]
      rfl
    · rw [Session.run_reported]
      exact congrArg (Except.mapError _) he
    · rw [hreport, hoff.taken]
      exact String.append_empty
    · rw [hlate, hoff.taken]
      exact String.append_empty

end Report

theorem report_of_broken_build :
    let catalog := Catalog.ofTriples [⟨"linux", "x64", none, "x86_64-unknown-linux"⟩]
    let s : Search := { dir := ⟨"app"⟩ }
    let path : Path := ⟨"app/index.linux-x64.so"⟩
    let host := Rehearsal.host ⟨"linux", "x64", [path], [(path, ⟨"loading", ["no ELF"]⟩)], [], []⟩
    let context := ["starting", "reading addons"]
    ∃ report late, ((s.resolveReport catalog ⟨some "1", "0: main"⟩).run context host).value =
        .error report ∧
      (((s.resolve catalog).reported ⟨some "0", "0: main"⟩).run context host).value = .error late ∧
      report.render = "found native binding app/index.linux-x64.so, but failed to load it" ++
        "\n  caused by: loading\n  caused by: no ELF" ++
        "\n  while resolving native binding for linux/x64" ++
        "\n  while reading addons\n  while starting\n\nBacktrace:\n0: main" ∧
      late.render = "found native binding app/index.linux-x64.so, but failed to load it" ++
        "\n  caused by: loading\n  caused by: no ELF" ++
        "\n  while reading addons\n  while starting" := by
  intro catalog s path host context
  obtain ⟨-, -, -, -, -, -, hfails⟩ :=
    report_adds_purpose s catalog ⟨some "1", "0: main"⟩ ⟨some "0", "0: main"⟩ context host
  have hcause : (match ((s.resolve catalog).run context host).value with
      | .error e => some e
      | .ok _ => none) =
      some (.resolution "app/index.linux-x64.so" ⟨"loading", ["no ELF"]⟩) := by decide +kernel
  have he : ((s.resolve catalog).run context host).value =
      .error (.resolution "app/index.linux-x64.so" ⟨"loading", ["no ELF"]⟩) := by
    cases hv : ((s.resolve catalog).run context host).value with
    | error e =>
      rw [hv] at hcause
      exact congrArg Except.error (Option.some.inj hcause)
    | ok found => simp [hv] at hcause
  obtain ⟨report, late, hr, hl, -, -, hreport, -, -, hlate⟩ := hfails _ he
  exact ⟨report, late, hr, hl, hreport.trans (by decide +kernel),
    (hlate (.inr rfl)).trans (by decide +kernel)⟩

end Prebuilt
