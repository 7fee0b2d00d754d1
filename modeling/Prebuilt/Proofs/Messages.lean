import Prebuilt.Catalog.BuiltIn
import Prebuilt.Proofs.Quotations
import Prebuilt.Proofs.Rendering

/-! What the messages of failures tell. A text in quotation marks is read off its message again,
whatever it looks like, and so is a list of attempts, each on a line of its own. -/

namespace Prebuilt

section QuotedMessages

/-- One line, and no control character in it. -/
def OneLine (text : String) : Prop :=
  text.toList.splitOn '\n' = [text.toList] ∧ ∀ c ∈ text.toList, ¬IsControl c

theorem oneLine_iff {text : String} : OneLine text ↔ ∀ c ∈ text.toList, ¬IsControl c := by
  refine ⟨And.right, fun h => ⟨List.splitOn_eq_singleton fun hm => ?_, h⟩⟩
  exact h '\n' hm (by decide)

theorem oneLine_of_all {text : String} (h : (text.toList.all fun c => ¬IsControl c) = true) :
    OneLine text :=
  oneLine_iff.mpr fun c hc => of_decide_eq_true (List.all_eq_true.mp h c hc)

theorem OneLine.append {s t : String} (hs : OneLine s) (ht : OneLine t) : OneLine (s ++ t) := by
  rw [oneLine_iff] at hs ht ⊢
  intro c hc
  rw [String.toList_append, List.mem_append] at hc
  exact hc.elim (hs c) (ht c)

/-! What stands around the quoted texts. -/

def beforePlatform : String := "unsupported target: no native bindings are built for platform "

def beforeArch : String := ", architecture "

def beforeName : String := "Invalid package name "

namespace Quotation

variable (q : Quotation)

def unsupportedText (platform arch : String) : String :=
  beforePlatform ++ q.quote platform ++ beforeArch ++ q.quote arch

def invalidText (s : String) : String := beforeName ++ q.quote s

theorem oneLine_quote (s : String) : OneLine (q.quote s) :=
  oneLine_iff.mpr fun _ => q.not_control_of_mem_quote

theorem oneLine_unsupportedText (platform arch : String) :
    OneLine (q.unsupportedText platform arch) := by
  have hplatform : OneLine beforePlatform := oneLine_of_all (by decide +kernel)
  have harch : OneLine beforeArch := oneLine_of_all (by decide +kernel)
  exact ((hplatform.append (q.oneLine_quote platform)).append harch).append (q.oneLine_quote arch)

theorem oneLine_invalidText (s : String) : OneLine (q.invalidText s) := by
  have hname : OneLine beforeName := oneLine_of_all (by decide +kernel)
  exact hname.append (q.oneLine_quote s)

end Quotation

/-- What follows `start`. -/
def dropStart? (start : String) (cs : List Char) : Option (List Char) := cs.dropPrefix? start.toList

theorem dropStart_append (start : String) (cs : List Char) :
    dropStart? start (start.toList ++ cs) = some cs :=
  List.dropPrefix?_append_of_beq cs (by simp)

theorem eq_iff_of_read {α : Type} {message : α → String} {read? : String → Option α}
    (h : ∀ a, read? (message a) = some a) (a a' : α) : message a = message a' ↔ a = a' := by
  constructor
  · intro he
    have hread := congrArg read? he
    rw [h, h] at hread
    exact Option.some.inj hread
  · rintro rfl
    rfl

/-- The platform and the architecture that a message says nothing is built for. -/
def readUnsupported? (message : String) : Option (String × String) := do
  let cs ← dropStart? beforePlatform message.toList
  let (platform, cs) ← readQuoted? cs
  let cs ← dropStart? beforeArch cs
  let (arch, _) ← readQuoted? cs
  pure (platform, arch)

/-- The text that a message says is no package name. -/
def readInvalid? (message : String) : Option String := do
  let cs ← dropStart? beforeName message.toList
  let (s, _) ← readQuoted? cs
  pure s

namespace Quotation

variable (q : Quotation)

theorem readUnsupported_text (platform arch : String) :
    readUnsupported? (q.unsupportedText platform arch) = some (platform, arch) := by
  have harch := q.readQuoted_quote arch []
  rw [List.append_nil] at harch
  simp only [readUnsupported?, unsupportedText, String.toList_append, List.append_assoc,
    dropStart_append, readQuoted_quote, harch, Option.bind_eq_bind, Option.bind_some, Option.pure_def]

theorem readInvalid_text (s : String) : readInvalid? (q.invalidText s) = some s := by
  have hquote := q.readQuoted_quote s []
  rw [List.append_nil] at hquote
  simp only [readInvalid?, invalidText, String.toList_append, dropStart_append, hquote,
    Option.bind_eq_bind, Option.bind_some, Option.pure_def]

theorem unsupportedText_eq_iff {platform arch platform' arch' : String} :
    q.unsupportedText platform arch = q.unsupportedText platform' arch' ↔
      platform = platform' ∧ arch = arch' := by
  have hread : ∀ pair : String × String,
      readUnsupported? (q.unsupportedText pair.1 pair.2) = some pair :=
    fun pair => q.readUnsupported_text pair.1 pair.2
  exact (eq_iff_of_read hread (platform, arch) (platform', arch')).trans Prod.ext_iff

end Quotation

theorem eq_unsupported_of_lookup {catalog : Catalog} {platform arch : String} {e : ResolveError}
    (h : catalog.lookup platform arch = .error e) : e = .unsupportedTarget platform arch := by
  unfold Catalog.lookup at h
  split at h
  · exact (Except.error.inj h).symm
  · contradiction

theorem eq_invalid_of_parse {s : String} {e : PackageName.Invalid}
    (h : PackageName.parse s = .error e) : e = ⟨s⟩ := by
  unfold PackageName.parse at h
  split at h
  · contradiction
  · exact (Except.error.inj h).symm

/-- However texts are quoted, the message of a look-up that finds nothing is one line and tells the
pair, and the message of a text that is no package name is one line and tells the text. -/
theorem refusals_tell_what_was_asked (q : Quotation) :
    (∀ platform arch, OneLine (q.unsupportedText platform arch) ∧
      readUnsupported? (q.unsupportedText platform arch) = some (platform, arch)) ∧
    (∀ platform arch platform' arch',
      q.unsupportedText platform arch = q.unsupportedText platform' arch' ↔
        platform = platform' ∧ arch = arch') ∧
    (∀ s, OneLine (q.invalidText s) ∧ readInvalid? (q.invalidText s) = some s) ∧
    (∀ s s', q.invalidText s = q.invalidText s' ↔ s = s') ∧
    (∀ platform arch, (ResolveError.unsupportedTarget platform arch).message =
      Quotation.usual.unsupportedText platform arch) ∧
    (∀ s, PackageName.Invalid.message ⟨s⟩ = Quotation.usual.invalidText s) ∧
    (∀ (catalog : Catalog) platform arch e, catalog.lookup platform arch = .error e →
      readUnsupported? e.message = some (platform, arch)) ∧
    ∀ s e, PackageName.parse s = .error e → readInvalid? e.message = some s := by
  refine ⟨fun platform arch => ?_, fun _ _ _ _ => q.unsupportedText_eq_iff, fun s => ?_,
    eq_iff_of_read q.readInvalid_text, fun _ _ => rfl, fun _ => rfl, ?_, ?_⟩
  · exact ⟨q.oneLine_unsupportedText platform arch, q.readUnsupported_text platform arch⟩
  · exact ⟨q.oneLine_invalidText s, q.readInvalid_text s⟩
  · intro catalog platform arch e he
    rw [eq_unsupported_of_lookup he]
    exact Quotation.usual.readUnsupported_text platform arch
  · intro s e he
    rw [eq_invalid_of_parse he]
    exact Quotation.usual.readInvalid_text s

/-- Bare marks would make one sentence of these pairs, and a bare escape would make one of these
names. -/
theorem look_alikes_are_told_apart :
    let q : Quotation := ⟨fun c => decide (IsControl c), decide_eq_true⟩
    let platform := "linux\", architecture \"x64"
    let arch := "\\u\x7b1b\x7d\x1b"
    q.unsupportedText platform arch =
      "unsupported target: no native bindings are built for platform \"linux\\\", architecture " ++
        "\\\"x64\", architecture \"\\\\u\x7b1b\x7d\\u\x7b1b\x7d\"" ∧
    q.unsupportedText platform arch ≠
      q.unsupportedText "linux" ("x64\", architecture \"" ++ arch) ∧
    q.invalidText "Foo\n" ≠ q.invalidText "Foo\\n" ∧
    (∃ e, Catalog.builtIn.lookup platform arch = .error e ∧
      readUnsupported? e.message = some (platform, arch)) ∧
    ∃ e, PackageName.parse "Foo\n" = .error e ∧ readInvalid? e.message = some "Foo\n" := by
  intro q platform arch
  obtain ⟨-, hpair, -, hname, -, -, hlookup, hparse⟩ := refusals_tell_what_was_asked q
  have hnone : Catalog.builtIn.lookup platform arch = .error (.unsupportedTarget platform arch) := by
    decide +kernel
  have hbad : PackageName.parse "Foo\n" = .error ⟨"Foo\n"⟩ := by decide +kernel
  refine ⟨by decide +kernel, ?_, ?_, ⟨_, hnone, hlookup _ _ _ _ hnone⟩, _, hbad, hparse _ _ hbad⟩
  · rw [ne_eq, hpair]
    decide +kernel
  · rw [ne_eq, hname]
    decide +kernel

end QuotedMessages

section Attempts

variable {attempted : List String}

def notFoundTitle : String := "cannot find native binding; tried:"

/-- The lines below the title: one for each attempt, or an empty one if there was none. -/
def attemptLines (attempted : List String) : List String :=
  if attempted = [] then [""] else attempted.map fun a => "  " ++ a

/-- The attempts that a message lists below its title. -/
def readAttempts (message : String) : List String :=
  behind "  " (message.toList.splitOn '\n').tail

theorem cons_intercalate {sep : Char} {lines : List (List Char)} (h : lines ≠ []) :
    sep :: [sep].intercalate lines = lines.flatMap (sep :: ·) := by
  induction lines with
  | nil => exact absurd rfl h
  | cons line lines ih =>
    cases lines with
    | nil => simp
    | cons next lines =>
      rw [List.intercalate_cons_cons, List.flatMap_cons, ← ih (by simp)]
      simp

theorem notFoundText_eq (attempted : List String) :
    ResolveError.notFoundText attempted = notFoundTitle ++
      ("\n" ++ String.intercalate "\n" (attempted.map fun a => "  " ++ a)) := by
  have htitle : ResolveError.notFoundText attempted = notFoundTitle ++ "\n" ++
      String.intercalate "\n" (attempted.map fun a => "  " ++ a) := rfl
  exact htitle.trans String.append_assoc

/-- A line break stands in front of every line, also of the empty one for no attempt at all. -/
theorem toList_notFoundText (attempted : List String) :
    (ResolveError.notFoundText attempted).toList =
      notFoundTitle.toList ++ ((attemptLines attempted).map String.toList).flatMap ('\n' :: ·) := by
  have hlines : ("\n" ++ String.intercalate "\n" (attempted.map fun a => "  " ++ a)).toList =
      '\n' :: ['\n'].intercalate ((attempted.map fun a => "  " ++ a).map String.toList) := by
    rw [String.toList_append, String.toList_intercalate]
    rfl
  rw [notFoundText_eq, String.toList_append, hlines, attemptLines]
  by_cases hne : attempted = []
  · subst hne
    rfl
  · rw [if_neg hne, cons_intercalate (by simpa using hne)]

theorem newline_notMem_attemptLines (h : ∀ a ∈ attempted, '\n' ∉ a.toList) :
    ∀ line ∈ (attemptLines attempted).map String.toList, '\n' ∉ line := by
  intro line hline
  rw [attemptLines] at hline
  split at hline
  · simp only [List.map_cons, List.map_nil, List.mem_singleton] at hline
    simp [hline]
  · obtain ⟨a, ha, rfl⟩ : ∃ a ∈ attempted, ("  " ++ a).toList = line := by simpa using hline
    simpa using h a ha

theorem splitOn_notFoundText (h : ∀ a ∈ attempted, '\n' ∉ a.toList) :
    (ResolveError.notFoundText attempted).toList.splitOn '\n' =
      notFoundTitle.toList :: (attemptLines attempted).map String.toList := by
  have htitle : '\n' ∉ notFoundTitle.toList := by decide +kernel
  rw [toList_notFoundText, splitOn_lines htitle (newline_notMem_attemptLines h)]

theorem behind_attemptLines (attempted : List String) :
    behind "  " ((attemptLines attempted).map String.toList) = attempted := by
  rw [attemptLines]
  split
  · next hne => rw [hne]; rfl
  · rw [List.map_map]
    exact behind_marked "  " attempted

theorem readAttempts_notFoundText (h : ∀ a ∈ attempted, '\n' ∉ a.toList) :
    readAttempts (ResolveError.notFoundText attempted) = attempted := by
  rw [readAttempts, splitOn_notFoundText h, List.tail_cons, behind_attemptLines]

/-- Where no attempt runs over a line, the message of a search that found nothing has a title and a
line for each attempt, or an empty line if there was none, and tells the whole list. -/
theorem attempts_are_listed_line_by_line (h : ∀ a ∈ attempted, '\n' ∉ a.toList) :
    let message := (ResolveError.bindingNotFound attempted).message
    (message.toList.splitOn '\n').map String.ofList = "cannot find native binding; tried:" ::
      (if attempted = [] then [""] else attempted.map fun a => "  " ++ a) ∧
    readAttempts message = attempted ∧
    ∀ attempted' : List String, (∀ a ∈ attempted', '\n' ∉ a.toList) →
      (message = (ResolveError.bindingNotFound attempted').message ↔ attempted = attempted') := by
  intro message
  refine ⟨?_, readAttempts_notFoundText h, fun attempted' h' => ⟨fun hsame => ?_, ?_⟩⟩
  · have hcut : message.toList.splitOn '\n' =
        (notFoundTitle :: attemptLines attempted).map String.toList := splitOn_notFoundText h
    rw [hcut, List.map_map]
    simp [Function.comp_def, attemptLines, notFoundTitle]
  · calc attempted = readAttempts message := (readAttempts_notFoundText h).symm
      _ = readAttempts (ResolveError.bindingNotFound attempted').message := by rw [hsame]
      _ = attempted' := readAttempts_notFoundText h'
  · rintro rfl
    rfl

/-- An empty attempt is a line of two spaces, other than the empty line of no attempt at all. -/
theorem blank_and_repeated_attempts_are_listed :
    let attempted := ["", "  a", "a", "a", ""]
    let message := (ResolveError.bindingNotFound attempted).message
    (∀ a ∈ attempted, '\n' ∉ a.toList) ∧
    message = "cannot find native binding; tried:\n  \n    a\n  a\n  a\n  " ∧
    readAttempts message = attempted ∧
    message ≠ (ResolveError.bindingNotFound ["", "  a", "a", ""]).message ∧
    (ResolveError.bindingNotFound []).message ≠ (ResolveError.bindingNotFound [""]).message := by
  intro attempted message
  have hlines : ∀ a ∈ attempted, '\n' ∉ a.toList := by decide +kernel
  obtain ⟨-, hread, hsame⟩ := attempts_are_listed_line_by_line hlines
  have hempty : ∀ a ∈ ([] : List String), '\n' ∉ a.toList := by simp
  obtain ⟨-, -, hsame'⟩ := attempts_are_listed_line_by_line hempty
  refine ⟨hlines, by decide +kernel, hread, ?_, ?_⟩
  · rw [ne_eq, hsame _ (by decide +kernel)]
    decide +kernel
  · rw [ne_eq, hsame' _ (by decide +kernel)]
    decide +kernel

/-- A line break within an attempt could begin another one. -/
example : (ResolveError.bindingNotFound ["a\n  b"]).message =
    (ResolveError.bindingNotFound ["a", "b"]).message := by
  decide +kernel

end Attempts

end Prebuilt
