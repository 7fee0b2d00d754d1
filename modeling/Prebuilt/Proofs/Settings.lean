import Mathlib.Data.List.Forall2
import Mathlib.Data.List.Induction
import Mathlib.Data.List.TakeWhile
import Prebuilt.CommandLine.Request
import Prebuilt.Proofs.Pieces

/-! What flags say. A list of flags says a list of settings, in the order of the flags and however
each of them is spelled; reading the flags is taking in these settings one after another. They are
taken in if each is allowed and none is made twice but those that count. -/

namespace Prebuilt

theorem except_bind_eq_ok {ε α β : Type} {x : Except ε α} {f : α → Except ε β} {b : β} :
    x >>= f = .ok b ↔ ∃ a, x = .ok a ∧ f a = .ok b := by
  cases x <;> simp [Bind.bind, Except.bind]

inductive Argument.Spelling : Argument → String → Prop where
  | escape : Spelling .escape "--"
  | long {name : String} (hne : name ≠ "") (hsep : '=' ∉ name.toList) :
      Spelling (.long name none) ("--" ++ name)
  | joined {name value : String} (hsep : '=' ∉ name.toList) :
      Spelling (.long name (some value)) ("--" ++ name ++ "=" ++ value)
  | short {letters : List Char} (hne : letters ≠ []) (hhead : letters.head? ≠ some '-') :
      Spelling (.short letters) (String.ofList ('-' :: letters))
  | hyphen : Spelling .plain "-"
  | plain {text : String} (hhead : text.toList.head? ≠ some '-') : Spelling .plain text

namespace Argument

variable {arg : Argument} {text : String}

theorem all_of_notMem {cs : List Char} (h : '=' ∉ cs) : ∀ c ∈ cs, (c != '=') = true := by
  intro c hc
  have hne : c ≠ '=' := fun he => h (he ▸ hc)
  simpa using hne

theorem Spelling.ofText_eq (h : arg.Spelling text) : ofText text = arg := by
  cases h with
  | escape => rfl
  | @long name hne hsep =>
    have htext : ("--" ++ name).toList = '-' :: '-' :: name.toList := by simp
    have hdrop : name.toList.dropWhile (· != '=') = [] :=
      List.dropWhile_eq_nil_iff.mpr (all_of_notMem hsep)
    have hnil : name.toList ≠ [] := by simpa using hne
    obtain ⟨c, cs, hcs⟩ := List.exists_cons_of_ne_nil hnil
    rw [hcs] at htext hdrop
    have hname : String.ofList (c :: cs) = name := by rw [← hcs, String.ofList_toList]
    simp only [ofText, htext, hdrop, hname]
  | @joined name value hsep =>
    have htext : ("--" ++ name ++ "=" ++ value).toList =
        '-' :: '-' :: (name.toList ++ '=' :: value.toList) := by simp
    have hdrop : (name.toList ++ '=' :: value.toList).dropWhile (· != '=') = '=' :: value.toList := by
      rw [List.dropWhile_append_of_pos (all_of_notMem hsep)]
      rfl
    have htake : (name.toList ++ '=' :: value.toList).takeWhile (· != '=') = name.toList := by
      rw [List.takeWhile_append_of_pos (all_of_notMem hsep)]
      simp
    obtain ⟨c, cs, hcs⟩ := List.exists_cons_of_ne_nil
      (show name.toList ++ '=' :: value.toList ≠ [] by simp)
    rw [hcs] at htext hdrop htake
    simp only [ofText, htext, hdrop, htake, String.ofList_toList]
  | @short letters hne hhead =>
    cases letters with
    | nil => exact absurd rfl hne
    | cons c cs =>
      have hc : c ≠ '-' := by simpa using hhead
      simp [ofText, hc]
  | hyphen => rfl
  | plain hhead =>
    unfold ofText
    split
    · simp_all
    · simp_all
    · rfl
    · simp_all
    · rfl

theorem spelling_ofText (text : String) : (ofText text).Spelling text := by
  unfold ofText
  split
  · rename_i h
    have htext : text = "--" := String.toList_inj.mp h
    exact htext ▸ .escape
  · rename_i cs hne h
    split
    · rename_i hdrop
      have htext : text = "--" ++ String.ofList cs := by
        rw [← String.toList_inj, h]
        simp
      rw [htext]
      refine .long (fun he => hne ?_) fun hm => ?_
      · simpa using he
      · simpa using List.dropWhile_eq_nil_iff.mp hdrop '=' (by simpa using hm)
    · rename_i c value hdrop
      obtain ⟨hstop, hcut⟩ := cut_of_dropWhile hdrop
      have hc : c = '=' := by simpa using hstop
      rw [hc] at hcut
      have htext : text = "--" ++ String.ofList (cs.takeWhile (· != '=')) ++ "=" ++
          String.ofList value := by
        rw [← String.toList_inj, h]
        simpa using hcut
      rw [htext]
      refine .joined fun hm => ?_
      have hh := List.mem_takeWhile_imp (by simpa using hm)
      simp at hh
  · rename_i h
    have htext : text = "-" := String.toList_inj.mp h
    exact htext ▸ .hyphen
  · rename_i cs hescape hlong hlone h
    have htext : text = String.ofList ('-' :: cs) := by
      rw [← h, String.ofList_toList]
    rw [htext]
    refine .short hlone fun he => ?_
    obtain ⟨rest, rfl⟩ : ∃ rest, cs = '-' :: rest := by
      cases cs with
      | nil => simp at he
      | cons c cs => exact ⟨cs, by simpa using he⟩
    exact hlong rest rfl
  · rename_i hshort
    refine .plain fun he => ?_
    cases hcs : text.toList with
    | nil => simp [hcs] at he
    | cons c cs =>
      have hc : c = '-' := by simpa [hcs] using he
      exact hshort cs (hc ▸ hcs)

theorem spelling_iff : arg.Spelling text ↔ ofText text = arg :=
  ⟨Spelling.ofText_eq, fun h => h ▸ spelling_ofText text⟩

end Argument

/-- A count that flags raise. -/
inductive Counter where
  | verbose
  | quiet
  deriving DecidableEq

namespace Counter

def name : Counter → String
  | verbose => "verbose"
  | quiet => "quiet"

theorem name_injective : Function.Injective name := by
  intro k k' h
  cases k <;> cases k' <;> simp [name] at h <;> rfl

end Counter

/-- What one flag sets: an option to a text, or a switch. -/
inductive Setting where
  | value (option text : String)
  | switch (name : String)
  deriving DecidableEq

inductive LetterOf : Char → String → Prop where
  | verbose : LetterOf 'v' "verbose"
  | quiet : LetterOf 'q' "quiet"
  | version : LetterOf 'V' "version"

/-- Flags and the settings they say. An option has its text behind an equals sign or in the next
argument; letters are switches, any number of them in one argument. -/
inductive Tells (a : Accepts) : List String → List Setting → Prop where
  | nil : Tells a [] []
  | joined {arg option text : String} {flags : List String} {settings : List Setting}
      (harg : (Argument.long option (some text)).Spelling arg)
      (hoption : Given.takesValue a option = true) (h : Tells a flags settings) :
      Tells a (arg :: flags) (.value option text :: settings)
  | apart {arg option text : String} {flags : List String} {settings : List Setting}
      (harg : (Argument.long option none).Spelling arg)
      (hoption : Given.takesValue a option = true) (htext : Argument.plain.Spelling text)
      (h : Tells a flags settings) : Tells a (arg :: text :: flags) (.value option text :: settings)
  | switch {arg name : String} {flags : List String} {settings : List Setting}
      (harg : (Argument.long name none).Spelling arg)
      (hname : Given.takesValue a name = false) (h : Tells a flags settings) :
      Tells a (arg :: flags) (.switch name :: settings)
  | letters {arg : String} {letters : List Char} {names flags : List String}
      {settings : List Setting} (harg : (Argument.short letters).Spelling arg)
      (hnames : List.Forall₂ LetterOf letters names) (h : Tells a flags settings) :
      Tells a (arg :: flags) (names.map Setting.switch ++ settings)

/-- How flags end: with the last argument, in front of a plain one, or at an escape. -/
inductive EndOfFlags (flags : List String) : Bool → List String → List String → Prop where
  | last : EndOfFlags flags false [] flags
  | plain {text : String} {rest : List String} (htext : Argument.plain.Spelling text) :
      EndOfFlags flags false (text :: rest) (flags ++ text :: rest)
  | escape {rest : List String} : EndOfFlags flags true rest (flags ++ "--" :: rest)

theorem EndOfFlags.prepend {flags rest args : List String} {escaped : Bool}
    (h : EndOfFlags flags escaped rest args) (front : List String) :
    EndOfFlags (front ++ flags) escaped rest (front ++ args) := by
  cases h with
  | last => exact .last
  | plain htext => exact List.append_assoc .. ▸ .plain htext
  | escape => exact List.append_assoc .. ▸ .escape

namespace Given

variable {a : Accepts} {g g' : Given} {flags : List String} {settings : List Setting}

def add (a : Accepts) (g : Given) : Setting → Except Stop Given
  | .value option text => g.addValue option text
  | .switch name => g.addSwitch a name

theorem addLetter_eq {c : Char} {name : String} (h : LetterOf c name) :
    g.addLetter a c = g.addSwitch a name := by
  cases h <;> rfl

theorem exists_letterOf {c : Char} (h : g.addLetter a c = .ok g') : ∃ name, LetterOf c name := by
  unfold addLetter at h
  split_ifs at h with hv hq hV
  · exact ⟨"verbose", hv ▸ .verbose⟩
  · exact ⟨"quiet", hq ▸ .quiet⟩
  · exact ⟨"version", hV ▸ .version⟩

theorem addLetters_eq {letters : List Char} {names : List String}
    (h : List.Forall₂ LetterOf letters names) :
    g.addLetters a letters = (names.map Setting.switch).foldlM (add a) g := by
  induction h generalizing g with
  | nil => rfl
  | cons hc _ ih =>
    rw [addLetters, addLetter_eq hc, List.map_cons, List.foldlM_cons]
    exact bind_congr fun g => ih

theorem exists_lettersOf {letters : List Char} (h : g.addLetters a letters = .ok g') :
    ∃ names, List.Forall₂ LetterOf letters names := by
  induction letters generalizing g with
  | nil => exact ⟨[], .nil⟩
  | cons c letters ih =>
    obtain ⟨g₁, hc, hrest⟩ := except_bind_eq_ok.mp h
    obtain ⟨name, hname⟩ := exists_letterOf hc
    obtain ⟨names, hnames⟩ := ih hrest
    exact ⟨name :: names, .cons hname hnames⟩

/-- What flags say is taken in before anything behind them is read. -/
theorem readUpToPlain_append (h : Tells a flags settings) (g : Given) (rest : List String) :
    readUpToPlain a g (flags ++ rest) =
      settings.foldlM (add a) g >>= fun g => readUpToPlain a g rest := by
  induction h generalizing g with
  | nil => rfl
  | joined harg hoption _ ih =>
    rw [List.cons_append, readUpToPlain, harg.ofText_eq, List.foldlM_cons, bind_assoc]
    dsimp only
    rw [if_pos hoption]
    exact bind_congr ih
  | apart harg hoption htext _ ih =>
    rw [List.cons_append, readUpToPlain, harg.ofText_eq, List.foldlM_cons, bind_assoc]
    dsimp only [List.cons_append]
    rw [if_pos hoption, htext.ofText_eq]
    exact bind_congr ih
  | switch harg hname _ ih =>
    rw [List.cons_append, readUpToPlain, harg.ofText_eq, List.foldlM_cons, bind_assoc]
    dsimp only
    rw [hname]
    exact bind_congr ih
  | letters harg hnames _ ih =>
    rw [List.cons_append, readUpToPlain, harg.ofText_eq, List.foldlM_append, bind_assoc]
    dsimp only
    rw [addLetters_eq hnames]
    exact bind_congr ih

theorem readUpToPlain_endOfFlags {rest args : List String} {escaped : Bool}
    (h : EndOfFlags flags escaped rest args) (htells : Tells a flags settings) :
    readUpToPlain a g args = settings.foldlM (add a) g >>= fun g => .ok (g, escaped, rest) := by
  cases h with
  | last => simpa [readUpToPlain] using readUpToPlain_append htells g []
  | plain htext =>
    rw [readUpToPlain_append htells]
    simp only [readUpToPlain, htext.ofText_eq]
  | escape => exact readUpToPlain_append htells g _

theorem foldlM_cons_eq_ok {s : Setting} : (s :: settings).foldlM (add a) g = .ok g' ↔
    ∃ g₁, g.add a s = .ok g₁ ∧ settings.foldlM (add a) g₁ = .ok g' := by
  rw [List.foldlM_cons, except_bind_eq_ok]

theorem exists_tells_of_readUpToPlain {args rest : List String} {escaped : Bool}
    (h : readUpToPlain a g args = .ok (g', escaped, rest)) :
    ∃ flags settings, Tells a flags settings ∧ EndOfFlags flags escaped rest args ∧
      settings.foldlM (add a) g = .ok g' := by
  fun_induction readUpToPlain a g args generalizing g'
  case case1 =>
    cases h
    exact ⟨[], [], .nil, .last, rfl⟩
  case case2 harg =>
    cases h
    cases Argument.spelling_iff.mpr harg
    exact ⟨[], [], .nil, .escape, rfl⟩
  case case3 harg =>
    cases h
    exact ⟨[], [], .nil, .plain (Argument.spelling_iff.mpr harg), rfl⟩
  case case4 g arg rest letters harg ih =>
    obtain ⟨g₁, hletters, hrest⟩ := except_bind_eq_ok.mp h
    obtain ⟨names, hnames⟩ := exists_lettersOf hletters
    obtain ⟨flags, settings, htells, hend, hfold⟩ := ih g₁ hrest
    refine ⟨arg :: flags, names.map Setting.switch ++ settings,
      .letters (Argument.spelling_iff.mpr harg) hnames htells, hend.prepend [arg], ?_⟩
    rw [List.foldlM_append, ← addLetters_eq hnames]
    exact except_bind_eq_ok.mpr ⟨g₁, hletters, hfold⟩
  case case5 g arg rest option text harg hoption ih =>
    obtain ⟨g₁, hvalue, hrest⟩ := except_bind_eq_ok.mp h
    obtain ⟨flags, settings, htells, hend, hfold⟩ := ih g₁ hrest
    exact ⟨arg :: flags, .value option text :: settings,
      .joined (Argument.spelling_iff.mpr harg) hoption htells, hend.prepend [arg],
      foldlM_cons_eq_ok.mpr ⟨g₁, hvalue, hfold⟩⟩
  case case9 g arg option harg hoption text rest htext ih =>
    obtain ⟨g₁, hvalue, hrest⟩ := except_bind_eq_ok.mp h
    obtain ⟨flags, settings, htells, hend, hfold⟩ := ih g₁ hrest
    exact ⟨arg :: text :: flags, .value option text :: settings,
      .apart (Argument.spelling_iff.mpr harg) hoption (Argument.spelling_iff.mpr htext) htells,
      hend.prepend [arg, text], foldlM_cons_eq_ok.mpr ⟨g₁, hvalue, hfold⟩⟩
  case case11 g arg rest name harg hname ih =>
    obtain ⟨g₁, hswitch, hrest⟩ := except_bind_eq_ok.mp h
    obtain ⟨flags, settings, htells, hend, hfold⟩ := ih g₁ hrest
    exact ⟨arg :: flags, .switch name :: settings,
      .switch (Argument.spelling_iff.mpr harg) (Bool.eq_false_iff.mpr hname) htells,
      hend.prepend [arg], foldlM_cons_eq_ok.mpr ⟨g₁, hswitch, hfold⟩⟩
  all_goals cases h

end Given

namespace Setting

def text? (option : String) : Setting → Option String
  | value o text => if o = option then some text else none
  | switch _ => none

/-- A colour has a name, a directory is not empty, a family is the name of a package; a switch counts
or is one of the command's own, and does not end the program. -/
def Allowed (a : Accepts) : Setting → Prop
  | value option text => (option = "color" → (Colour.ofName? text).isSome = true) ∧
      (option = "dir" → text ≠ "") ∧ (option = "package-prefix" → PackageName.isValid text = true)
  | switch name => (∃ k : Counter, name = k.name) ∨
      (name ∈ a.switches ∧ ¬(name = "version" ∧ a.version = true))

/-- Settings of which only one may be made: two of one option, or of one switch that does not
count. -/
def Clashes : Setting → Setting → Prop
  | value option _, value option' _ => option = option'
  | switch name, switch name' => name = name' ∧ ∀ k : Counter, name ≠ k.name
  | _, _ => False

end Setting

def Counter.times (k : Counter) (settings : List Setting) : Nat := settings.count (.switch k.name)

def given? (option : String) (settings : List Setting) : Option String :=
  settings.findSome? (Setting.text? option)

structure Admissible (a : Accepts) (settings : List Setting) : Prop where
  allowed : ∀ s ∈ settings, s.Allowed a
  once : settings.Pairwise fun s t => ¬s.Clashes t

theorem admissible_concat {a : Accepts} {settings : List Setting} {s : Setting} :
    Admissible a (settings ++ [s]) ↔
      Admissible a settings ∧ s.Allowed a ∧ ∀ t ∈ settings, ¬t.Clashes s := by
  constructor
  · rintro ⟨hallowed, honce⟩
    rw [List.forall_mem_append, List.forall_mem_singleton] at hallowed
    obtain ⟨hsettings, -, hclash⟩ := List.pairwise_append.mp honce
    exact ⟨⟨hallowed.1, hsettings⟩, hallowed.2, fun t ht => hclash t ht s (by simp)⟩
  · rintro ⟨⟨hallowed, honce⟩, hs, hclash⟩
    refine ⟨List.forall_mem_append.mpr ⟨hallowed, List.forall_mem_singleton.mpr hs⟩,
      List.pairwise_append.mpr ⟨honce, List.pairwise_singleton _ _, fun t ht u hu => ?_⟩⟩
    exact List.mem_singleton.mp hu ▸ hclash t ht

namespace Given

variable {a : Accepts} {g g' : Given} {s : Setting} {settings : List Setting}

def count (g : Given) : Counter → Nat
  | .verbose => g.verbose
  | .quiet => g.quiet

def countOne (g : Given) : Counter → Given
  | .verbose => { g with verbose := Verbosity.countOne g.verbose }
  | .quiet => { g with quiet := Verbosity.countOne g.quiet }

@[simp] theorem count_countOne_self (g : Given) (k : Counter) :
    (g.countOne k).count k = Verbosity.countOne (g.count k) := by
  cases k <;> rfl

theorem count_countOne_of_ne {k k' : Counter} (h : k ≠ k') :
    (g.countOne k).count k' = g.count k' := by
  cases k <;> cases k' <;> first | rfl | exact absurd rfl h

@[simp] theorem switches_countOne (g : Given) (k : Counter) :
    (g.countOne k).switches = g.switches := by
  cases k <;> rfl

@[simp] theorem colour_countOne (g : Given) (k : Counter) : (g.countOne k).colour = g.colour := by
  cases k <;> rfl

@[simp] theorem value?_countOne (g : Given) (k : Counter) (option : String) :
    (g.countOne k).value? option = g.value? option := by
  cases k <;> rfl

inductive Adds (a : Accepts) (g : Given) : Setting → Given → Prop where
  | count (k : Counter) : Adds a g (.switch k.name) (g.countOne k)
  | switch {name : String} (hk : ∀ k : Counter, name ≠ k.name) (hname : name ∈ a.switches)
      (hversion : ¬(name = "version" ∧ a.version = true)) (hnew : name ∉ g.switches) :
      Adds a g (.switch name) { g with switches := name :: g.switches }
  | colour {text : String} {c : Colour} (hc : Colour.ofName? text = some c)
      (hnew : g.colour = none) : Adds a g (.value "color" text) { g with colour := some c }
  | value {option text : String} (hoption : option ≠ "color")
      (htext : isValueOf option text = true) (hnew : g.value? option = none) :
      Adds a g (.value option text) { g with values := (option, text) :: g.values }

theorem adds_of_add (h : g.add a s = .ok g') : Adds a g s g' := by
  cases s with
  | value option text =>
    unfold add addValue at h
    dsimp only at h
    split_ifs at h with hcolour hgiven htext
    · subst hcolour
      unfold addColour at h
      split at h
      · cases h
      · cases h
      · rename_i c hnew hc
        cases h
        exact .colour hc hnew
    · cases h
      exact .value hcolour htext (by simpa using hgiven)
  | switch name =>
    unfold add addSwitch at h
    dsimp only at h
    split_ifs at h with hverbose hquiet hversion hname hgiven
    · cases h
      exact hverbose ▸ .count .verbose
    · cases h
      exact hquiet ▸ .count .quiet
    · cases h
      refine .switch ?_ (by simpa using hname) (by simpa using hversion) (by simpa using hgiven)
      rintro (_ | _)
      · exact hverbose
      · exact hquiet

theorem Adds.add_eq (h : Adds a g s g') : g.add a s = .ok g' := by
  cases h with
  | count k => cases k <;> rfl
  | @switch name hk hname hversion hnew =>
    have hverbose : name ≠ "verbose" := hk .verbose
    have hquiet : name ≠ "quiet" := hk .quiet
    have hends : (decide (name = "version") && a.version) = false := by simpa using hversion
    simp [add, addSwitch, hverbose, hquiet, hends, hname, hnew]
  | colour hc hnew => simp [add, addValue, addColour, hc, hnew]
  | value hoption htext hnew => simp [add, addValue, hoption, htext, hnew]

theorem add_eq_ok_iff : g.add a s = .ok g' ↔ Adds a g s g' := ⟨adds_of_add, Adds.add_eq⟩

structure Gathers (g : Given) (settings : List Setting) : Prop where
  counts : ∀ k : Counter, g.count k = min Verbosity.maxCount (k.times settings)
  switches : ∀ name, (∀ k : Counter, name ≠ k.name) → (name ∈ g.switches ↔ .switch name ∈ settings)
  colour : (given? "color" settings).map Colour.ofName? = g.colour.map some
  values : ∀ option, option ≠ "color" → g.value? option = given? option settings

theorem gathers_empty : Gathers {} [] where
  counts k := by cases k <;> rfl
  switches := by simp
  colour := rfl
  values _ _ := rfl

@[simp] theorem given?_concat (option : String) (settings : List Setting) (s : Setting) :
    given? option (settings ++ [s]) = (given? option settings).or (s.text? option) := by
  simp [given?, List.findSome?_append]

theorem given?_eq_none_iff {option text : String} :
    given? option settings = none ↔ ∀ t ∈ settings, ¬t.Clashes (.value option text) := by
  rw [given?, List.findSome?_eq_none_iff]
  refine forall₂_congr fun t _ => ?_
  cases t <;> simp [Setting.text?, Setting.Clashes]

theorem switch_notMem_iff {name : String} (hk : ∀ k : Counter, name ≠ k.name) :
    .switch name ∉ settings ↔ ∀ t ∈ settings, ¬t.Clashes (.switch name) := by
  constructor
  · intro h t ht hclash
    cases t with
    | value option text => exact hclash
    | switch name' => exact h (hclash.1 ▸ ht)
  · intro h hm
    exact h _ hm ⟨rfl, hk⟩

theorem times_append_self (k : Counter) :
    k.times (settings ++ [.switch k.name]) = k.times settings + 1 := by
  simp [Counter.times]

theorem times_append_of_ne {k : Counter} (h : s ≠ .switch k.name) :
    k.times (settings ++ [s]) = k.times settings := by
  simp [Counter.times, h]

theorem Gathers.adds (hg : g.Gathers settings) (h : Adds a g s g') :
    g'.Gathers (settings ++ [s]) := by
  cases h with
  | count k =>
    refine ⟨fun k' => ?_, fun name hk => ?_, ?_, fun option hoption => ?_⟩
    · by_cases he : k = k'
      · subst he
        rw [count_countOne_self, hg.counts, times_append_self, Verbosity.countOne]
        omega
      · rw [count_countOne_of_ne he, hg.counts, times_append_of_ne]
        simpa using fun hname => he (Counter.name_injective hname)
    · simpa [hk k] using hg.switches name hk
    · simpa [Setting.text?] using hg.colour
    · simpa [Setting.text?] using hg.values option hoption
  | @switch name hk hname hversion hnew =>
    refine ⟨fun k => ?_, fun name' hk' => ?_, ?_, fun option hoption => ?_⟩
    · rw [times_append_of_ne (by simpa using hk k)]
      exact hg.counts k
    · have hswitch := hg.switches name' hk'
      simp [hswitch, or_comm]
    · simpa [Setting.text?] using hg.colour
    · simpa [Setting.text?, value?] using hg.values option hoption
  | @colour text c hc hnew =>
    have hnone : given? "color" settings = none := by simpa [hnew] using hg.colour
    refine ⟨fun k => ?_, fun name hk => ?_, ?_, fun option hoption => ?_⟩
    · rw [times_append_of_ne (by simp)]
      exact hg.counts k
    · simpa using hg.switches name hk
    · simp [Setting.text?, hnone, hc]
    · simpa [Setting.text?, value?, hoption.symm] using hg.values option hoption
  | @value option text hoption htext hnew =>
    refine ⟨fun k => ?_, fun name hk => ?_, ?_, fun option' hoption' => ?_⟩
    · rw [times_append_of_ne (by simp)]
      exact hg.counts k
    · simpa using hg.switches name hk
    · simpa [Setting.text?, hoption] using hg.colour
    · have hvalue := hg.values option' hoption'
      by_cases he : option = option'
      · subst he
        have hnone : given? option settings = none := hvalue ▸ hnew
        simp [Setting.text?, value?, hnone]
      · have hother : (option' == option) = false := beq_false_of_ne (Ne.symm he)
        simpa [Setting.text?, value?, List.lookup_cons, he, hother] using hvalue

theorem isValueOf_iff {option text : String} : isValueOf option text = true ↔
    (option = "dir" → text ≠ "") ∧ (option = "package-prefix" → PackageName.isValid text = true) := by
  unfold isValueOf
  split
  · simp
  · simp
  · simp_all

/-- A setting can be taken in exactly if it is allowed and clashes with none before it. -/
theorem Gathers.exists_adds_iff (hg : g.Gathers settings) :
    (∃ g', Adds a g s g') ↔ s.Allowed a ∧ ∀ t ∈ settings, ¬t.Clashes s := by
  constructor
  · rintro ⟨g', h⟩
    cases h with
    | count k =>
      refine ⟨.inl ⟨k, rfl⟩, fun t _ hclash => ?_⟩
      cases t with
      | value option text => exact hclash
      | switch name => exact hclash.2 k hclash.1
    | @switch name hk hname hversion hnew =>
      have hm : .switch name ∉ settings := fun hm => hnew ((hg.switches name hk).mpr hm)
      exact ⟨.inr ⟨hname, hversion⟩, (switch_notMem_iff hk).mp hm⟩
    | @colour text c hc hnew =>
      have hnone : given? "color" settings = none := by simpa [hnew] using hg.colour
      exact ⟨⟨fun _ => by simp [hc], by simp, by simp⟩, given?_eq_none_iff.mp hnone⟩
    | @value option text hoption htext hnew =>
      have hnone : given? option settings = none := hg.values option hoption ▸ hnew
      exact ⟨⟨fun he => absurd he hoption, isValueOf_iff.mp htext⟩, given?_eq_none_iff.mp hnone⟩
  · rintro ⟨hallowed, hclash⟩
    cases s with
    | value option text =>
      have hnone := given?_eq_none_iff.mpr hclash
      by_cases hoption : option = "color"
      · subst hoption
        obtain ⟨c, hc⟩ := Option.isSome_iff_exists.mp (hallowed.1 rfl)
        exact ⟨_, .colour hc (by simpa [hnone] using hg.colour.symm)⟩
      · exact ⟨_, .value hoption (isValueOf_iff.mpr hallowed.2) (hg.values option hoption ▸ hnone)⟩
    | switch name =>
      by_cases hk : ∃ k : Counter, name = k.name
      · obtain ⟨k, rfl⟩ := hk
        exact ⟨_, .count k⟩
      · obtain ⟨hname, hversion⟩ := hallowed.resolve_left hk
        have hk' : ∀ k : Counter, name ≠ k.name := fun k he => hk ⟨k, he⟩
        have hm := (switch_notMem_iff hk').mpr hclash
        exact ⟨_, .switch hk' hname hversion fun h => hm ((hg.switches name hk').mp h)⟩

theorem foldlM_concat_eq_ok {start : Given} :
    (settings ++ [s]).foldlM (add a) start = .ok g' ↔
      ∃ g, settings.foldlM (add a) start = .ok g ∧ Adds a g s g' := by
  simp [List.foldlM_append, except_bind_eq_ok, add_eq_ok_iff]

theorem gathers_of_foldlM (h : settings.foldlM (add a) {} = .ok g) : g.Gathers settings := by
  induction settings using List.reverseRecOn generalizing g with
  | nil =>
    cases h
    exact gathers_empty
  | append_singleton settings s ih =>
    obtain ⟨g₁, hsettings, hs⟩ := foldlM_concat_eq_ok.mp h
    exact (ih hsettings).adds hs

theorem exists_foldlM_iff :
    (∃ g, settings.foldlM (add a) {} = .ok g) ↔ Admissible a settings := by
  -- From the back: whether a setting can be taken in depends on those gathered before it.
  induction settings using List.reverseRecOn with
  | nil => exact ⟨fun _ => ⟨by simp, .nil⟩, fun _ => ⟨{}, rfl⟩⟩
  | append_singleton settings s ih =>
    rw [admissible_concat, ← ih]
    constructor
    · rintro ⟨g', h⟩
      obtain ⟨g, hsettings, hs⟩ := foldlM_concat_eq_ok.mp h
      exact ⟨⟨g, hsettings⟩, (gathers_of_foldlM hsettings).exists_adds_iff.mp ⟨g', hs⟩⟩
    · rintro ⟨⟨g, hsettings⟩, hs⟩
      obtain ⟨g', h⟩ := (gathers_of_foldlM hsettings).exists_adds_iff.mpr hs
      exact ⟨g', foldlM_concat_eq_ok.mpr ⟨g, hsettings, h⟩⟩

end Given

end Prebuilt
