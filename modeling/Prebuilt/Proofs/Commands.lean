import Mathlib.Data.List.Forall2
import Prebuilt.CommandLine.Run
import Prebuilt.Proofs.Arguments
import Prebuilt.Proofs.Candidates
import Prebuilt.Proofs.Loading
import Prebuilt.Proofs.Reporting

/-! The two commands that search. What `candidates` prints is the plan of the search, which no disk
has a part in; whatever `resolve` comes to, it names entries of that plan and nothing else. -/

namespace Prebuilt

namespace Search

def pairHere (s : Search) : String × String := s.target.getD (hostPlatform, hostArch)

def startedOn (s : Search) (disk : Disk) :
    Outcome NativeHost (Except ResolveError (Resolved Binding)) :=
  (s.resolve Catalog.builtIn).run [] ⟨disk, [], []⟩

end Search

section Finish

variable {disk : Disk} {s : Search} {tracing : Tracing}

/-- The command runs the search that reports, which comes to what the search that does not report
comes to. -/
theorem run_resolveReport_startedOn (s : Search) (disk : Disk) (tracing : Tracing) :
    (s.resolveReport Catalog.builtIn tracing).run [] (NativeHost.mk disk [] []) =
      ⟨(s.startedOn disk).value.mapError
          fun e => .new e [Search.purpose s.pairHere.1 s.pairHere.2] tracing,
        (s.startedOn disk).host, (s.startedOn disk).calls, (s.startedOn disk).events⟩ := by
  rw [run_resolveReport, Search.startedOn, run_resolve]
  rfl

theorem finish_resolve_of_ok {found : Resolved Binding}
    (h : (s.startedOn disk).value = .ok found) :
    (Command.resolve s).finish disk tracing = ⟨Command.resolvedOutput found,
      .running hostPlatform hostArch :: (s.startedOn disk).events, none⟩ := by
  have hrun := run_resolveReport_startedOn s disk tracing
  rw [h] at hrun
  unfold Command.finish
  dsimp only
  rw [hrun]
  rfl

theorem finish_resolve_of_error {e : ResolveError} (h : (s.startedOn disk).value = .error e) :
    (Command.resolve s).finish disk tracing =
      .failed (.running hostPlatform hostArch :: (s.startedOn disk).events)
        (.new e [Search.purpose s.pairHere.1 s.pairHere.2] tracing) := by
  have hrun := run_resolveReport_startedOn s disk tracing
  rw [h] at hrun
  unfold Command.finish
  dsimp only
  rw [hrun]
  rfl

end Finish

namespace Verbosity

theorem passes_purposeLevel (v : Verbosity) : v.passes purposeLevel = true := by
  unfold passes purposeLevel
  cases v.threshold <;> rfl

end Verbosity

/-- A verbosity hides events, and nothing else of what a command comes to. -/
theorem Upshot.seenAt_eq (u : Upshot) (v : Verbosity) : u.seenAt v = ⟨u, v⟩ := by
  obtain ⟨output, logged, report⟩ := u
  have hreport : (report.map fun r =>
      { r with context := r.context.filter fun _ => v.passes purposeLevel }) = report := by
    simp [v.passes_purposeLevel]
  simp only [seenAt, hreport]

section Runs

variable {r : Request} {s : Search} {plan : List Candidate} {e : ResolveError} {disk : Disk}
  {tracing : Tracing}

theorem run_of_resolve {found : Resolved Binding} (hc : r.command = .resolve s)
    (hv : (s.startedOn disk).value = .ok found) :
    r.run disk tracing = ⟨⟨Command.resolvedOutput found,
      .running hostPlatform hostArch :: (s.startedOn disk).events, none⟩, r.verbosity⟩ := by
  rw [Request.run, hc, finish_resolve_of_ok hv, Upshot.seenAt_eq]

theorem run_of_resolve_error (hc : r.command = .resolve s)
    (hv : (s.startedOn disk).value = .error e) :
    r.run disk tracing = ⟨.failed (.running hostPlatform hostArch :: (s.startedOn disk).events)
      (.new e [Search.purpose s.pairHere.1 s.pairHere.2] tracing), r.verbosity⟩ := by
  rw [Request.run, hc, finish_resolve_of_error hv, Upshot.seenAt_eq]

/-- Behind a report made for one purpose there is only a backtrace. -/
theorem render_for (e : ResolveError) (purpose : String) (tracing : Tracing) :
    (Report.new e [purpose] tracing).render = e.message ++
      String.join (e.failure.causes.map fun cause => "\n  caused by: " ++ cause) ++
      "\n  while " ++ purpose ++ Report.backtraceText tracing.taken := by
  have hh := render_new e [purpose] tracing
  simp only [List.reverse_singleton, List.map_cons, List.map_nil, String.join_cons, String.join_nil,
    String.append_empty] at hh
  exact hh.trans (congrArg (· ++ _) String.append_assoc.symm)

namespace EndsWithin

variable {f : Finish}

end EndsWithin

end Runs

example : (Request.ofArgs ["resolve", "--platform=linux", "--arch", "x64", "-v"]).toOption.map
    (fun r => r.verbosity.verbose) = some 1 := by
  decide +kernel

end Prebuilt
