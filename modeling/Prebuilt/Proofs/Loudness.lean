import Mathlib.Data.List.Flatten
import Prebuilt.Proofs.Cache
import Prebuilt.Proofs.Commands

/-! `resolve` seen at every verbosity. The counts decide which events are shown, by their difference
alone, and what the program comes to does not depend on them; nor do the lines of a debugging log,
which stand between the messages whatever is shown. -/

namespace Prebuilt

theorem Level.gravity_le (l : Level) : l.gravity ≤ 4 := by
  cases l <;> decide

theorem Level.four_le_gravity_iff (l : Level) : 4 ≤ l.gravity ↔ l = .error := by
  cases l <;> decide

namespace Verbosity

/-- Two levels in each direction are all there is. -/
theorem gravity_threshold (v : Verbosity) :
    (v.threshold.gravity : Int) = min 4 (max 0 (2 - ((v.verbose : Int) - v.quiet))) := by
  unfold threshold
  generalize (v.verbose : Int) - v.quiet = difference
  -- Beyond two the level is held at its ends, where `max` and `min` hold the right side.
  match difference with
  | .ofNat 0 => rfl
  | .ofNat 1 => rfl
  | .ofNat (n + 2) =>
    have hfloor : max 0 (2 - Int.ofNat (n + 2)) = 0 := by
      rw [Int.ofNat_eq_natCast]
      omega
    rw [hfloor]
    rfl
  | .negSucc 0 => rfl
  | .negSucc (n + 1) =>
    have hceiling : min 4 (max 0 (2 - Int.negSucc (n + 1))) = 4 := by
      rw [Int.negSucc_eq]
      omega
    rw [hceiling]
    rfl

theorem passes_iff (v : Verbosity) (l : Level) :
    v.passes l = true ↔ 2 - ((v.verbose : Int) - v.quiet) ≤ l.gravity ∨ l = .error := by
  have hthreshold := v.gravity_threshold
  have hle := l.gravity_le
  rw [passes, decide_eq_true_eq, ← l.four_le_gravity_iff]
  omega

/-- Raising one count or lowering the other lets through all that got through. -/
theorem passes_mono {v v' : Verbosity} (hv : v.verbose ≤ v'.verbose) (hq : v'.quiet ≤ v.quiet)
    {l : Level} (h : v.passes l = true) : v'.passes l = true := by
  rw [passes_iff] at h ⊢
  exact h.imp_left fun hle => by omega

theorem passes_loudest (l : Level) : passes ⟨maxCount, 0⟩ l = true := by
  rw [passes_iff]
  change 2 - (((255 : Nat) : Int) - (0 : Nat)) ≤ l.gravity ∨ _
  omega

end Verbosity

/-- On a host that has loaded nothing yet, a binding is the library at the canonical path of its
artifact. -/
theorem NativeHost.Loads.of_fresh {ε : Type} {disk : Disk} {artifact : Option Path}
    {binding : Binding} {after : NativeHost}
    (h : Loads (ε := ε) ⟨disk, [], []⟩ artifact (.ok binding) after) :
    ∃ path key library, artifact = some path ∧ disk.canonical path = .ok key ∧
      disk.library key = some library ∧ binding = ⟨0, key, library⟩ := by
  cases h with
  | loaded ha hk hy =>
    cases hy with
    | kept hc => cases hc
    | opened hc hl => exact ⟨_, _, _, ha, hk, hl, rfl⟩

/-- How a run of `resolve` ends: with a binding and its canonical path in the one line of output, or
with no output and a report as the last message. -/
inductive Ends (s : Search) (disk : Disk) (tracing : Tracing) (colour : Colour) (t : Terminal)
    (f : Finish) : Prop where
  | loaded {c : Candidate} {path key : Path} {library : Library}
      (hv : (s.startedOn disk).value = .ok ⟨⟨0, key, library⟩, c.target, c.attempt⟩)
      (ha : disk.artifact? [s.dir] c.attempt = some path) (hk : disk.canonical path = .ok key)
      (hl : disk.library key = some library) (hstatus : f.status = 0)
      (houtput : f.output = c.target.shortId ++ " " ++ key.text ++ "\n") (hreport : f.report = none)
      (hmessages : f.messages colour t = f.log colour t) : Ends s disk tracing colour t f
  | failed {e : ResolveError} {report : Report ResolveError} {text : String}
      (hv : (s.startedOn disk).value = .error e) (hstatus : f.status = 1) (houtput : f.output = "")
      (hreport : f.report = some report) (herror : report.error = e)
      (htext : text = e.message ++
        String.join (e.failure.causes.map fun cause => "\n  caused by: " ++ cause) ++
        "\n  while " ++ ("resolving native binding for " ++ s.pairHere.1 ++ "/" ++ s.pairHere.2))
      (hrender : report.render = text ++ Report.backtraceText tracing.taken)
      (hoff : tracing.Off → report.render = text)
      (hmessages : f.messages colour t = f.log colour t ++ ["Error: " ++ report.render]) :
      Ends s disk tracing colour t f

namespace Terminal

variable {t : Terminal} {shown shown' : Event → Bool}

/-- Without a debugging log there are the events shown, and nothing between them. -/
theorem lines_of_quiet (h : ∀ i, t.debug i = []) (c : Colour) (shown : Event → Bool)
    (logged : List Event) : t.lines c shown logged = (logged.filter shown).map (Event.shown c t) := by
  have hlines (i : Nat) :
      ((logged.zipIdx i).flatMap fun line =>
        (if shown line.1 then [line.1.shown c t] else []) ++ t.debug line.2) =
      (logged.filter shown).map (Event.shown c t) := by
    induction logged generalizing i with
    | nil => rfl
    | cons e logged ih =>
      rw [List.zipIdx_cons, List.flatMap_cons, ih, List.filter_cons]
      dsimp only
      rw [h, List.append_nil]
      by_cases he : shown e = true
      · simp only [he, if_true, List.map_cons, List.singleton_append]
      · simp only [he, if_false, Bool.false_eq_true, List.nil_append]
  rw [lines, h, List.nil_append, hlines]

/-- Showing more events adds lines, and moves none. -/
theorem lines_sublist (h : ∀ e, shown e = true → shown' e = true) (c : Colour)
    (logged : List Event) : List.Sublist (t.lines c shown logged) (t.lines c shown' logged) := by
  refine (List.Sublist.refl _).append (List.Sublist.flatMap_right _ fun line _ => ?_)
  refine List.Sublist.append ?_ (List.Sublist.refl _)
  by_cases he : shown line.1 = true
  · rw [if_pos he, if_pos (h _ he)]
  · rw [if_neg he]
    exact List.nil_sublist _

end Terminal

section Resolve

variable (s : Search) (disk : Disk) (tracing : Tracing)

theorem run_resolve_at (v : Verbosity) (colour : Colour) :
    Request.run ⟨v, colour, .resolve s⟩ disk tracing =
      ⟨(Command.resolve s).finish disk tracing, v⟩ :=
  Upshot.seenAt_eq _ v

theorem events_loudest (colour : Colour) :
    (Request.run ⟨⟨255, 0⟩, colour, .resolve s⟩ disk tracing).events =
      ((Command.resolve s).finish disk tracing).logged := by
  rw [run_resolve_at]
  exact List.filter_eq_self.mpr fun e _ => Verbosity.passes_loudest e.level

theorem run_ends (v : Verbosity) (colour : Colour) (t : Terminal) :
    Ends s disk tracing colour t (Request.run ⟨v, colour, .resolve s⟩ disk tracing) := by
  have hfails {e : ResolveError} (hv : (s.startedOn disk).value = .error e) :
      Ends s disk tracing colour t (Request.run ⟨v, colour, .resolve s⟩ disk tracing) := by
    rw [run_of_resolve_error rfl hv]
    have hrender := render_for e (Search.purpose s.pairHere.1 s.pairHere.2) tracing
    refine .failed hv rfl rfl rfl rfl rfl hrender (fun hoff => ?_) rfl
    rw [hrender, hoff.taken]
    exact String.append_empty
  rcases NativeHost.resolve_loads ⟨disk, [], []⟩ s Catalog.builtIn [] with
    ⟨e, hv, -⟩ | ⟨c, answer, hv, hl⟩
  · exact hfails hv
  · cases answer with
    | error cause => exact hfails hv
    | ok binding =>
      obtain ⟨path, key, library, ha, hk, hlibrary, rfl⟩ := hl.of_fresh
      rw [run_of_resolve rfl hv]
      exact .loaded hv ha hk hlibrary rfl rfl rfl (List.append_nil _)

end Resolve

/-- All flags that `resolve` takes describe a search, and the counts are read as far as they go, on
either side of the command. At every count the run ends the same way, with the same output and report,
and shows the events of the loudest run from the level on that the difference of the counts stands
for; so more `-v` or fewer `-q` only add to what is shown. -/
theorem counts_hide_events_only (flags : List String) :
    ((∃ stop, ∀ front before, Flags Request.mainAccepts front before →
        Request.ofArgs (front ++ "resolve" :: flags) = .error stop) ∧
      ∀ settings, ¬SearchFlags flags settings) ∨
    (∃ settings, SearchFlags flags settings) ∧ ∀ settings, SearchFlags flags settings →
      ∃ s, Describes settings s ∧
      (∀ front before, Flags Request.mainAccepts front before →
        Request.ofArgs (front ++ "resolve" :: flags) =
          .ok ⟨loudness before settings, colourOf before settings, .resolve s⟩) ∧
      ((∀ k : Counter, k.times settings = 0) → ∀ v q,
        Request.ofArgs (List.replicate v "-v" ++ List.replicate q "-q" ++ "resolve" :: flags) =
          .ok ⟨⟨min 255 v, min 255 q⟩, colourOf [] settings, .resolve s⟩) ∧
      ∀ disk tracing colour t (v q : Nat),
        let runAt := fun v q => Request.run ⟨⟨v, q⟩, colour, .resolve s⟩ disk tracing
        let shown : Event → Bool := fun e =>
          2 - ((v : Int) - q) ≤ e.level.gravity ∨ e.level = .error
        Ends s disk tracing colour t (runAt v q) ∧
        (runAt v q).status = (runAt 255 0).status ∧
        (runAt v q).output = (runAt 255 0).output ∧
        (runAt v q).report = (runAt 255 0).report ∧
        (runAt v q).events = (runAt 255 0).events.filter shown ∧
        (runAt v q).log colour t = t.lines colour shown (runAt 255 0).events ∧
        ((∀ i, t.debug i = []) →
          (runAt v q).log colour t = (runAt v q).events.map (Event.shown colour t)) ∧
        ∀ v' q', v ≤ v' → q' ≤ q →
          List.Sublist (runAt v q).events (runAt v' q').events ∧
          List.Sublist ((runAt v q).messages colour t) ((runAt v' q').messages colour t) := by
  rcases Request.ofArgs_or_searchFlags flags with ⟨⟨stop, hrefuse⟩, hnone⟩ | hsome
  · exact .inl ⟨⟨stop, fun front before hfront => hrefuse front before hfront _ _ .resolve⟩, hnone⟩
  · refine .inr ⟨hsome, fun settings hflags => ?_⟩
    obtain ⟨s, hs, hread⟩ := Request.ofArgs_of_searchFlags hflags
    refine ⟨s, hs, fun front before hfront => hread front before hfront _ _ .resolve,
      fun hcounts v q => ?_, fun disk tracing colour t v q => ?_⟩
    · rw [hread _ _ (flags_counting v q) _ _ .resolve, loudness_counting v q hcounts,
        colourOf_counting]
      rfl
    · intro runAt shown
      have hshows : Verbosity.shows ⟨v, q⟩ = shown := by
        funext e
        rw [Bool.eq_iff_iff, decide_eq_true_iff]
        exact Verbosity.passes_iff ⟨v, q⟩ e.level
      refine ⟨run_ends s disk tracing ⟨v, q⟩ colour t, ?_, ?_, ?_, ?_, ?_,
        fun hdebug => Terminal.lines_of_quiet hdebug colour _ _, fun v' q' hv hq => ⟨?_, ?_⟩⟩
      · simp only [runAt, run_resolve_at]
        rfl
      · simp only [runAt, run_resolve_at]
      · simp only [runAt, run_resolve_at]
      · simp only [runAt, events_loudest, ← hshows]
        rw [run_resolve_at]
        rfl
      · simp only [runAt, events_loudest, ← hshows]
        rw [run_resolve_at]
        rfl
      · simp only [runAt, run_resolve_at]
        exact List.monotone_filter_right _ fun e => Verbosity.passes_mono hv hq
      · simp only [runAt, run_resolve_at]
        exact (Terminal.lines_sublist (fun e => Verbosity.passes_mono hv hq) colour _).append
          (List.Sublist.refl _)

end Prebuilt
