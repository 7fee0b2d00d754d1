import Prebuilt.Proofs.Pieces
import Prebuilt.Proofs.Reporting

/-! What a report says and what its text gives back. Texts go down the chain and messages go up the
stack, each on a line of its own behind a mark, so as long as none of them runs over a line the text
tells both lists, whatever the texts look like. A backtrace comes last, behind an empty line, and may
hold anything. -/

namespace Prebuilt

namespace Session

variable {η α ε : Type}

/-- Inside all of these messages, the first one outermost. -/
def inside (messages : List String) (s : Session η α) : Session η α := messages.foldr within s

theorem run_inside (messages : List String) (s : Session η α) (context : List String) (host : η) :
    (inside messages s).run context host = s.run (context ++ messages) host := by
  induction messages generalizing context with
  | nil => simp [inside]
  | cons message messages ih =>
    rw [List.append_cons, ← ih]
    rfl

/-- A report on an error, made inside `stack`, and wrapped later on while other messages are in
force. -/
def reporting (error : ε) (stack : List String) (later : List (List String × String))
    (tracing : Tracing) : Session η (Report ε) := do
  let made ← inside stack do
    let context ← currentContext
    pure (.new error context tracing)
  later.foldlM (fun report (messages, text) => inside messages (pure (report.wrap text))) made

theorem run_wraps (later : List (List String × String)) (report : Report ε)
    (context : List String) (host : η) :
    (later.foldlM (fun report (messages, text) => inside messages (pure (report.wrap text))) report :
        Session η (Report ε)).run context host =
      ⟨{ report with wraps := (later.map Prod.snd).reverse ++ report.wraps }, host, [], []⟩ := by
  induction later generalizing report with
  | nil => rfl
  | cons wrap later ih =>
    rw [List.foldlM_cons, run_bind, run_inside, run_pure, ih]
    simp [Report.wrap]

theorem run_reporting (error : ε) (stack : List String) (later : List (List String × String))
    (tracing : Tracing) (context : List String) (host : η) :
    (reporting error stack later tracing : Session η (Report ε)).run context host =
      ⟨⟨(later.map Prod.snd).reverse, error, context ++ stack, tracing.taken⟩, host, [], []⟩ := by
  rw [reporting, run_bind, run_inside, run_bind]
  simp [run_wraps, Report.new]

end Session

inductive Fault where
  | resolve (e : ResolveError)
  | package (e : PackageError)
  | plain (e : Failure)

namespace Fault

/-- The error's own text and then its sources', outermost first. -/
def texts : Fault → List String
  | resolve (.unsupportedTarget platform arch) =>
    ["unsupported target: no native bindings are built for platform " ++ quote platform ++
      ", architecture " ++ quote arch]
  | resolve (.bindingNotFound attempted) =>
    ["cannot find native binding; tried:\n" ++
      String.intercalate "\n" (attempted.map fun a => "  " ++ a)]
  | resolve (.resolution candidate source) =>
    ("found native binding " ++ candidate ++ ", but failed to load it") ::
      source.text :: source.causes
  | package (.notFound name) => ["package " ++ name.text ++ " is not installed"]
  | package (.broken name source) =>
    ("package " ++ name.text ++ " is installed but could not be loaded") ::
      source.text :: source.causes
  | plain e => e.text :: e.causes

end Fault

def Session.telling {η ε : Type} [Shown ε] (error : ε) (stack : List String)
    (later : List (List String × String)) (tracing : Tracing) : Session η (String × List String) := do
  let report ← reporting error stack later tracing
  pure (report.render, report.context)

def Fault.told {η : Type} (stack : List String) (later : List (List String × String))
    (tracing : Tracing) : Fault → Session η (String × List String)
  | resolve e => Session.telling e stack later tracing
  | package e => Session.telling e stack later tracing
  | plain e => Session.telling e stack later tracing

/-- The outermost text, a line for each further one, and a line for each message. -/
def written (texts contexts : List String) : String :=
  texts.headD "" ++ String.join (texts.tail.map fun text => "\n  caused by: " ++ text) ++
    String.join (contexts.reverse.map fun message => "\n  while " ++ message)

theorem Report.render_eq_written {ε : Type} [Shown ε] (r : Report ε) :
    r.render = written r.chain r.context ++ backtraceText r.backtrace := by
  simp [Report.render, Report.title, written, String.append_assoc]

section Telling

variable {η ε : Type} (stack : List String) (later : List (List String × String)) (tracing : Tracing)
  (context : List String) (host : η)

theorem Session.run_telling [Shown ε] (error : ε) :
    (telling error stack later tracing : Session η (String × List String)).run context host =
      ⟨(written ((later.map Prod.snd).reverse ++ (Shown.failure error).chain) (context ++ stack) ++
        Report.backtraceText tracing.taken, context ++ stack), host, [], []⟩ := by
  rw [telling, run_bind, run_reporting, Report.render_eq_written]
  rfl

theorem Fault.run_told (fault : Fault) :
    (fault.told stack later tracing : Session η (String × List String)).run context host =
      ⟨(written ((later.map Prod.snd).reverse ++ fault.texts) (context ++ stack) ++
        Report.backtraceText tracing.taken, context ++ stack), host, [], []⟩ := by
  rcases fault with (_ | _ | _) | (_ | _) | _ <;>
    exact Session.run_telling stack later tracing context host _

theorem Fault.texts_ne_nil (fault : Fault) : fault.texts ≠ [] := by
  rcases fault with (_ | _ | _) | (_ | _) | _ <;> simp [Fault.texts]

end Telling

/-- What stands behind a mark, on each line that starts with it. -/
def behind (mark : String) (lines : List (List Char)) : List String :=
  (lines.filterMap fun line => line.dropPrefix? mark.toList).map String.ofList

/-- The texts and the messages of a report, read off its first line and those behind it up to an
empty one. -/
def readBack (text : String) : List String × List String :=
  let lines := text.toList.splitOn '\n'
  let others := lines.tail.takeWhile (· ≠ [])
  (String.ofList (lines.headD []) :: behind "  caused by: " others,
    (behind "  while " others).reverse)

theorem behind_append (mark : String) (lines lines' : List (List Char)) :
    behind mark (lines ++ lines') = behind mark lines ++ behind mark lines' := by
  simp [behind]

theorem behind_marked (mark : String) (texts : List String) :
    behind mark (texts.map fun text => (mark ++ text).toList) = texts := by
  induction texts with
  | nil => rfl
  | cons text texts ih =>
    have hdrop : (mark ++ text).toList.dropPrefix? mark.toList = some text.toList := by
      rw [String.toList_append]
      exact List.dropPrefix?_append_of_beq _ (by simp)
    simp only [behind, List.map_cons, List.filterMap_cons, hdrop, String.ofList_toList] at ih ⊢
    rw [ih]

theorem behind_other {mark mark' : String}
    (h : ∀ cs, (mark'.toList ++ cs).dropPrefix? mark.toList = none) (texts : List String) :
    behind mark (texts.map fun text => (mark' ++ text).toList) = [] := by
  simp [behind, h]

/-- The lines of a report after the first one. -/
def marked (others contexts : List String) : List (List Char) :=
  (others.map fun text => ("  caused by: " ++ text).toList) ++
    contexts.reverse.map fun message => ("  while " ++ message).toList

theorem toList_written (outermost : String) (others contexts : List String) :
    (written (outermost :: others) contexts).toList =
      outermost.toList ++ (marked others contexts).flatMap ('\n' :: ·) := by
  simp [written, marked, String.toList_join, List.flatMap_map, -List.map_reverse]

/-- A backtrace is no part of the lines before it, and begins with an empty one. -/
theorem splitOn_append_backtraceText (cs : List Char) (taken : Option String) :
    ∃ more, (cs ++ (Report.backtraceText taken).toList).splitOn '\n' = cs.splitOn '\n' ++ more ∧
      more.takeWhile (· ≠ []) = [] := by
  cases taken with
  | none => exact ⟨[], by simp [Report.backtraceText], rfl⟩
  | some trace =>
    have htext : (Report.backtraceText (some trace)).toList =
        '\n' :: '\n' :: ("Backtrace:\n".toList ++ trace.toList) := by
      rw [Report.backtraceText, String.toList_append]
      rfl
    refine ⟨[] :: ("Backtrace:\n".toList ++ trace.toList).splitOn '\n', ?_, rfl⟩
    rw [htext, List.splitOn_append_cons_self, splitOn_cons_self]

theorem takeWhile_marked {others contexts : List String} {more : List (List Char)}
    (h : more.takeWhile (· ≠ []) = []) :
    (marked others contexts ++ more).takeWhile (· ≠ []) = marked others contexts := by
  have hmarked : ∀ line ∈ marked others contexts, decide (line ≠ []) = true := by
    intro line hline
    simp only [marked, List.mem_append, List.mem_map] at hline
    rcases hline with ⟨text, -, rfl⟩ | ⟨message, -, rfl⟩ <;> simp
  rw [List.takeWhile_append_of_pos hmarked, h, List.append_nil]

theorem readBack_written {texts contexts : List String} (hne : texts ≠ [])
    (h : ∀ text ∈ texts ++ contexts, '\n' ∉ text.toList) (taken : Option String) :
    readBack (written texts contexts ++ Report.backtraceText taken) = (texts, contexts) := by
  obtain ⟨outermost, others, rfl⟩ := List.exists_cons_of_ne_nil hne
  have hlines : ∀ line ∈ marked others contexts, '\n' ∉ line := by
    intro line hline
    simp only [marked, List.mem_append, List.mem_map, List.mem_reverse] at hline
    rcases hline with ⟨text, ht, rfl⟩ | ⟨message, hm, rfl⟩
    · have := h text (by simp [ht])
      simpa using this
    · have := h message (by simp [hm])
      simpa using this
  obtain ⟨more, hcut, hmore⟩ :=
    splitOn_append_backtraceText (written (outermost :: others) contexts).toList taken
  rw [toList_written, splitOn_lines (h outermost (by simp)) hlines, ← toList_written,
    ← String.toList_append, List.cons_append] at hcut
  have hcauses : ∀ cs, ("  while ".toList ++ cs).dropPrefix? "  caused by: ".toList = none := by
    intro cs
    rfl
  have hmessages : ∀ cs, ("  caused by: ".toList ++ cs).dropPrefix? "  while ".toList = none := by
    intro cs
    rfl
  have hbehind : behind "  caused by: " (marked others contexts) = others := by
    rw [marked, behind_append, behind_marked, behind_other hcauses, List.append_nil]
  have hbehind' : behind "  while " (marked others contexts) = contexts.reverse := by
    rw [marked, behind_append, behind_marked, behind_other hmessages, List.nil_append]
  simp only [readBack, hcut, List.headD_cons, List.tail_cons, takeWhile_marked hmore, hbehind,
    hbehind', String.ofList_toList, List.reverse_reverse]

/-- A report's text is the chain of the error under its wraps, last wrap first, and then the messages
that were in force where it was made, innermost first; those in force at a wrap leave no trace. Only a
backtrace may stand behind them, if one was asked for. When none of these runs over a line the text
tells them all, whatever the backtrace says. -/
theorem report_tells_chain_and_context {η : Type} (fault : Fault) (stack : List String)
    (later : List (List String × String)) (tracing : Tracing) (context : List String) (host : η) :
    let o := (fault.told stack later tracing : Session η (String × List String)).run context host
    let texts := (later.map Prod.snd).reverse ++ fault.texts
    let contexts := context ++ stack
    o.value.2 = contexts ∧ o.host = host ∧ o.calls = [] ∧ o.events = [] ∧
    (∃ outermost others, texts = outermost :: others ∧
      let text := outermost ++
        String.join (others.map fun text => "\n  caused by: " ++ text) ++
        String.join (contexts.reverse.map fun message => "\n  while " ++ message)
      o.value.1 = text ++ Report.backtraceText tracing.taken ∧ (tracing.Off → o.value.1 = text)) ∧
    ((∀ text ∈ texts ++ contexts, '\n' ∉ text.toList) →
      readBack o.value.1 = (texts, contexts) ∧
      ∀ (fault' : Fault) (stack' : List String) (later' : List (List String × String))
        (tracing' : Tracing) (context' : List String),
        let o' := (fault'.told stack' later' tracing' :
          Session η (String × List String)).run context' host
        let texts' := (later'.map Prod.snd).reverse ++ fault'.texts
        let contexts' := context' ++ stack'
        (∀ text ∈ texts' ++ contexts', '\n' ∉ text.toList) → o.value.1 = o'.value.1 →
          texts = texts' ∧ contexts = contexts') := by
  intro o texts contexts
  have ho : o = ⟨(written texts contexts ++ Report.backtraceText tracing.taken, contexts), host,
      [], []⟩ := fault.run_told stack later tracing context host
  have hne : ∀ (fault : Fault) (later : List (List String × String)),
      (later.map Prod.snd).reverse ++ fault.texts ≠ [] := fun fault _ =>
    List.append_ne_nil_of_right_ne_nil _ fault.texts_ne_nil
  refine ⟨by rw [ho], by rw [ho], by rw [ho], by rw [ho], ?_, fun h => ⟨?_, ?_⟩⟩
  · obtain ⟨outermost, others, htexts⟩ := List.exists_cons_of_ne_nil (hne fault later)
    have htext : o.value.1 = written (outermost :: others) contexts ++
        Report.backtraceText tracing.taken := by
      rw [ho, show texts = outermost :: others from htexts]
    refine ⟨outermost, others, htexts, htext, fun hoff => ?_⟩
    rw [htext, hoff.taken]
    exact String.append_empty
  · rw [ho]
    exact readBack_written (hne fault later) h tracing.taken
  · intro fault' stack' later' tracing' context' o' texts' contexts' h' hsame
    have ho' : o' = ⟨(written texts' contexts' ++ Report.backtraceText tracing'.taken, contexts'),
        host, [], []⟩ := fault'.run_told stack' later' tracing' context' host
    rw [ho, ho'] at hsame
    have hread := congrArg readBack hsame
    rw [readBack_written (hne fault later) h, readBack_written (hne fault' later') h'] at hread
    exact Prod.mk.inj hread

/-- A cause or a line of a backtrace that looks like a line of a report is read back as what it is.
A plain chain with the same texts, made inside all the messages at once, is reported alike. -/
theorem wrapped_report_reads_as_plain_chain :
    let fault : Fault := .resolve (.resolution "index.so" ⟨"  while caused by: this", ["no ELF"]⟩)
    let later := [(["leaving"], "start failed"), ([], "gave up")]
    let tracing : Tracing := ⟨some "full", "0: main\n  while tracing"⟩
    let o := (fault.told ["reading addons"] later tracing : Session Unit (String × List String)).run
      ["starting"] ()
    let texts := ["gave up", "start failed", "found native binding index.so, but failed to load it",
      "  while caused by: this", "no ELF"]
    let plain : Fault := .plain ⟨"gave up", texts.tail⟩
    let o' := (plain.told ["starting", "reading addons"] [] tracing :
      Session Unit (String × List String)).run [] ()
    o.value.1 = "gave up\n  caused by: start failed\n  caused by: found native binding index.so, " ++
      "but failed to load it\n  caused by:   while caused by: this\n  caused by: no ELF" ++
      "\n  while reading addons\n  while starting\n\nBacktrace:\n0: main\n  while tracing" ∧
    o.value.1 = o'.value.1 ∧ readBack o.value.1 = (texts, ["starting", "reading addons"]) := by
  intro fault later tracing o texts plain o'
  obtain ⟨-, -, -, -, -, hread⟩ :=
    report_tells_chain_and_context fault ["reading addons"] later tracing ["starting"] ()
  obtain ⟨hback, hsame⟩ := hread (by decide +kernel)
  have heq : o.value.1 = o'.value.1 := by decide +kernel
  have hlists := hsame plain ["starting", "reading addons"] [] tracing [] (by decide +kernel) heq
  refine ⟨by decide +kernel, heq, hback.trans ?_⟩
  rw [hlists.1, hlists.2]
  rfl

end Prebuilt
