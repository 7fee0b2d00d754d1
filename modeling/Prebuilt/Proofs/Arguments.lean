import Prebuilt.Proofs.Settings

/-! What is read off the arguments of the program. The commands that search read one search from the
same flags, field by field what the flags say; counts and colours may stand on either side of the
command, and those behind it go first. -/

namespace Prebuilt

/-- Flags that are taken, and what they say. -/
structure Flags (a : Accepts) (flags : List String) (settings : List Setting) : Prop where
  tells : Tells a flags settings
  admissible : Admissible a settings

/-- All the arguments behind a command: flags, and an escape behind them at most. -/
def AllFlags (a : Accepts) (args : List String) (settings : List Setting) : Prop :=
  ∃ flags, Flags a flags settings ∧ (args = flags ∨ args = flags ++ ["--"])

namespace Given

variable {a : Accepts} {g : Given} {flags args rest : List String} {settings : List Setting}
  {escaped : Bool}

theorem exists_readUpToPlain (h : Flags a flags settings)
    (hend : EndOfFlags flags escaped rest args) :
    ∃ g : Given, g.Gathers settings ∧ readUpToPlain a {} args = .ok (g, escaped, rest) := by
  obtain ⟨g, hg⟩ := exists_foldlM_iff.mpr h.admissible
  refine ⟨g, gathers_of_foldlM hg, ?_⟩
  rw [readUpToPlain_endOfFlags hend h.tells, hg]
  rfl

theorem exists_flags_of_readUpToPlain (h : readUpToPlain a {} args = .ok (g, escaped, rest)) :
    ∃ flags settings, Flags a flags settings ∧ EndOfFlags flags escaped rest args ∧
      g.Gathers settings := by
  obtain ⟨flags, settings, htells, hend, hfold⟩ := exists_tells_of_readUpToPlain h
  exact ⟨flags, settings, ⟨htells, exists_foldlM_iff.mp ⟨g, hfold⟩⟩, hend, gathers_of_foldlM hfold⟩

theorem exists_readAll (h : AllFlags a args settings) :
    ∃ g : Given, g.Gathers settings ∧ readAll a args = .ok g := by
  obtain ⟨flags, hflags, rfl | rfl⟩ := h
  · obtain ⟨g, hg, hread⟩ := exists_readUpToPlain hflags .last
    exact ⟨g, hg, by rw [readAll, hread]; rfl⟩
  · obtain ⟨g, hg, hread⟩ := exists_readUpToPlain hflags .escape
    exact ⟨g, hg, by rw [readAll, hread]; rfl⟩

theorem exists_allFlags_of_readAll (h : readAll a args = .ok g) :
    ∃ settings, AllFlags a args settings ∧ g.Gathers settings := by
  obtain ⟨⟨g₁, escaped, rest⟩, hread, h⟩ := except_bind_eq_ok.mp h
  cases rest with
  | nil =>
    cases h
    obtain ⟨flags, settings, hflags, hend, hg⟩ := exists_flags_of_readUpToPlain hread
    refine ⟨settings, ⟨flags, hflags, ?_⟩, hg⟩
    cases hend with
    | last => exact .inl rfl
    | escape => exact .inr rfl
  | cons text rest => cases h

end Given

/-- Flags of a command that searches. The two names of a pair need each other. -/
structure SearchFlags (args : List String) (settings : List Setting) : Prop where
  flags : AllFlags Request.searchAccepts args settings
  paired : (given? "platform" settings).isSome = (given? "arch" settings).isSome

/-- The search that settings describe: what they give, and otherwise the directory one is in, the
stem `index`, files, the ending of the platform and the pair of the host. -/
structure Describes (settings : List Setting) (s : Search) : Prop where
  dir : s.dir = ⟨(given? "dir" settings).getD "."⟩
  stem : s.stem = (given? "stem" settings).getD "index"
  family : s.family.map PackageName.text = given? "package-prefix" settings
  extension : s.extension = given? "ext" settings
  platform : s.target.map Prod.fst = given? "platform" settings
  arch : s.target.map Prod.snd = given? "arch" settings

/-- A count behind the command replaces the one in front of it. -/
def Counter.total (k : Counter) (before after : List Setting) : Nat :=
  min Verbosity.maxCount (if k.times after = 0 then k.times before else k.times after)

def loudness (before after : List Setting) : Verbosity :=
  ⟨Counter.verbose.total before after, Counter.quiet.total before after⟩

def colourOf (before after : List Setting) : Colour :=
  (((given? "color" after).or (given? "color" before)).bind Colour.ofName?).getD .auto

namespace Request

section Fields

variable {g gb ga : Given} {settings before after : List Setting}

/-- With the names of a pair both given or both left out, there is a search. -/
theorem search_eq_ok_iff {s : Search} :
    search g = .ok s ↔ (g.value? "platform").isSome = (g.value? "arch").isSome ∧
      s = {
        dir := ⟨(g.value? "dir").getD "."⟩
        stem := (g.value? "stem").getD "index"
        family := (g.value? "package-prefix").map PackageName.mk
        extension := g.value? "ext"
        target := (g.value? "platform").bind fun p => (g.value? "arch").map fun a => (p, a) } := by
  unfold search
  cases g.value? "platform" <;> cases g.value? "arch" <;>
    simp [Bind.bind, Except.bind, eq_comm]

theorem describes_of_search (hg : g.Gathers settings) {s : Search} (h : search g = .ok s) :
    Describes settings s := by
  obtain ⟨hpaired, rfl⟩ := search_eq_ok_iff.mp h
  have hvalue (option : String) (hne : option ≠ "color") :
      given? option settings = g.value? option := (hg.values option hne).symm
  refine ⟨?_, ?_, ?_, ?_, ?_, ?_⟩
  · rw [hvalue "dir" (by decide)]
  · rw [hvalue "stem" (by decide)]
  · rw [hvalue "package-prefix" (by decide), Option.map_map]
    exact congrFun Option.map_id _
  · rw [hvalue "ext" (by decide)]
  · rw [hvalue "platform" (by decide)]
    revert hpaired
    cases g.value? "platform" <;> cases g.value? "arch" <;> simp
  · rw [hvalue "arch" (by decide)]
    revert hpaired
    cases g.value? "platform" <;> cases g.value? "arch" <;> simp

def described (flags : List String) : Except Stop (Given × Search) := do
  let g ← Given.readAll searchAccepts flags
  let s ← search g
  .ok (g, s)

inductive Searching : String → (Search → Command) → Prop where
  | candidates : Searching "candidates" .candidates
  | resolve : Searching "resolve" .resolve

theorem ofCommand_search {name : String} {command : Search → Command} (h : Searching name command)
    (before : Given) (flags : List String) :
    ofCommand before name flags =
      (described flags).map fun (g, s) => make before g (command s) := by
  unfold described
  cases h <;> unfold ofCommand <;> cases Given.readAll searchAccepts flags with
  | error stop => rfl
  | ok g =>
    dsimp only [Bind.bind, Except.bind]
    cases search g <;> rfl

theorem searchFlags_of_described {flags : List String} {s : Search}
    (h : described flags = .ok (g, s)) : ∃ settings, SearchFlags flags settings := by
  obtain ⟨g₁, hread, h⟩ := except_bind_eq_ok.mp h
  obtain ⟨s₁, hs, -⟩ := except_bind_eq_ok.mp h
  obtain ⟨settings, hflags, hg⟩ := Given.exists_allFlags_of_readAll hread
  have hpaired := (search_eq_ok_iff.mp hs).1
  rw [hg.values "platform" (by decide), hg.values "arch" (by decide)] at hpaired
  exact ⟨settings, hflags, hpaired⟩

theorem exists_described {flags : List String} (h : SearchFlags flags settings) :
    ∃ g s, described flags = .ok (g, s) ∧ g.Gathers settings ∧ Describes settings s := by
  obtain ⟨g, hg, hread⟩ := Given.exists_readAll h.flags
  have hpaired := h.paired
  rw [← hg.values "platform" (by decide), ← hg.values "arch" (by decide)] at hpaired
  have hs := search_eq_ok_iff.mpr ⟨hpaired, rfl⟩
  exact ⟨g, _, except_bind_eq_ok.mpr ⟨g, hread, except_bind_eq_ok.mpr ⟨_, hs, rfl⟩⟩, hg,
    describes_of_search hg hs⟩

theorem total_eq (hb : gb.Gathers before) (ha : ga.Gathers after) (k : Counter) :
    (if ga.count k = 0 then gb.count k else ga.count k) = k.total before after := by
  have hmax : 0 < Verbosity.maxCount := by decide
  rw [hb.counts, ha.counts, Counter.total]
  by_cases hzero : k.times after = 0
  · rw [if_pos hzero, if_pos (by omega)]
  · rw [if_neg hzero, if_neg (by omega)]

theorem colour_cases (hg : g.Gathers settings) :
    (given? "color" settings = none ∧ g.colour = none) ∨
      ∃ text c, given? "color" settings = some text ∧ Colour.ofName? text = some c ∧
        g.colour = some c := by
  have hcolour := hg.colour
  cases hgiven : given? "color" settings with
  | none => exact .inl ⟨rfl, by simpa [hgiven] using hcolour.symm⟩
  | some text =>
    rw [hgiven, Option.map_some, eq_comm, Option.map_eq_some_iff] at hcolour
    obtain ⟨c, hc, hname⟩ := hcolour
    exact .inr ⟨text, c, rfl, hname.symm, hc⟩

theorem colourOf_eq (hb : gb.Gathers before) (ha : ga.Gathers after) :
    (ga.colour.orElse fun _ => gb.colour).getD .auto = colourOf before after := by
  unfold colourOf
  rcases colour_cases ha with ⟨hnone, hc⟩ | ⟨text, c, htext, hname, hc⟩
  · rcases colour_cases hb with ⟨hnone', hc'⟩ | ⟨text, c, htext, hname, hc'⟩
    · simp [hnone, hc, hnone', hc']
    · simp [hnone, hc, htext, hname, hc']
  · simp [htext, hname, hc]

theorem make_eq (hb : gb.Gathers before) (ha : ga.Gathers after) (command : Command) :
    make gb ga command = ⟨loudness before after, colourOf before after, command⟩ := by
  unfold make loudness
  rw [← total_eq hb ha .verbose, ← total_eq hb ha .quiet, ← colourOf_eq hb ha]
  rfl

end Fields

section Command

variable {front flags : List String} {before settings : List Setting} {name : String}
  {command : Search → Command}

theorem Searching.isPlain (h : Searching name command) : Argument.plain.Spelling name := by
  cases h <;> exact .plain (by decide)

theorem ofArgs_append (hfront : Flags mainAccepts front before)
    (hname : Argument.plain.Spelling name) (flags : List String) :
    ∃ g : Given, g.Gathers before ∧ ofArgs (front ++ name :: flags) = ofCommand g name flags := by
  obtain ⟨g, hg, hread⟩ := Given.exists_readUpToPlain hfront (.plain hname)
  exact ⟨g, hg, by rw [ofArgs, hread]; rfl⟩

/-- Flags that describe a search are read as that search, behind either command. -/
theorem ofArgs_of_searchFlags (h : SearchFlags flags settings) :
    ∃ s, Describes settings s ∧ ∀ front before, Flags mainAccepts front before →
      ∀ name command, Searching name command →
        ofArgs (front ++ name :: flags) =
          .ok ⟨loudness before settings, colourOf before settings, command s⟩ := by
  obtain ⟨g, s, hread, hg, hs⟩ := exists_described h
  refine ⟨s, hs, fun front before hfront name command hname => ?_⟩
  obtain ⟨gb, hb, hargs⟩ := ofArgs_append hfront hname.isPlain flags
  rw [hargs, ofCommand_search hname, hread]
  exact congrArg Except.ok (make_eq hb hg _)

/-- Both commands refuse all other flags, and for the same reason. -/
theorem ofArgs_or_searchFlags (flags : List String) :
    ((∃ stop, ∀ front before, Flags mainAccepts front before →
        ∀ name command, Searching name command →
          ofArgs (front ++ name :: flags) = .error stop) ∧
      ∀ settings, ¬SearchFlags flags settings) ∨
    ∃ settings, SearchFlags flags settings := by
  cases hread : described flags with
  | error stop =>
    refine .inl ⟨⟨stop, fun front before hfront name command hname => ?_⟩, fun settings h => ?_⟩
    · obtain ⟨gb, -, hargs⟩ := ofArgs_append hfront hname.isPlain flags
      rw [hargs, ofCommand_search hname, hread]
      rfl
    · obtain ⟨g, s, hs, -⟩ := exists_described h
      cases hread.symm.trans hs
  | ok read => exact .inr (searchFlags_of_described hread)

end Command

end Request

def Counter.flag : Counter → String
  | verbose => "-v"
  | quiet => "-q"

/-- What so many `-v` and so many `-q` tell. -/
def counting (v q : Nat) : List Setting :=
  List.replicate v (.switch Counter.verbose.name) ++ List.replicate q (.switch Counter.quiet.name)

section Counting

variable {a : Accepts} {settings : List Setting}

theorem tells_replicate (k : Counter) (n : Nat) {flags : List String} (h : Tells a flags settings) :
    Tells a (List.replicate n k.flag ++ flags)
      (List.replicate n (.switch k.name) ++ settings) := by
  induction n with
  | zero => exact h
  | succ n ih =>
    rw [List.replicate_succ, List.replicate_succ]
    cases k with
    | verbose => exact .letters (.short (by simp) (by decide)) (.cons .verbose .nil) ih
    | quiet => exact .letters (.short (by simp) (by decide)) (.cons .quiet .nil) ih

theorem admissible_of_counts (h : ∀ s ∈ settings, ∃ k : Counter, s = .switch k.name) :
    Admissible a settings where
  allowed s hs := by
    obtain ⟨k, rfl⟩ := h s hs
    exact .inl ⟨k, rfl⟩
  once := by
    refine List.pairwise_of_forall_mem_list fun s hs t ht hclash => ?_
    obtain ⟨k, rfl⟩ := h s hs
    obtain ⟨k', rfl⟩ := h t ht
    exact hclash.2 k rfl

theorem mem_counting {v q : Nat} {s : Setting} (h : s ∈ counting v q) :
    ∃ k : Counter, s = .switch k.name := by
  rcases List.mem_append.mp h with h | h
  · exact ⟨_, (List.mem_replicate.mp h).2⟩
  · exact ⟨_, (List.mem_replicate.mp h).2⟩

theorem flags_counting (v q : Nat) :
    Flags a (List.replicate v "-v" ++ List.replicate q "-q") (counting v q) where
  tells := by
    have hquiet := tells_replicate .quiet q (.nil : Tells a [] [])
    rw [List.append_nil, List.append_nil] at hquiet
    exact tells_replicate .verbose v hquiet
  admissible := admissible_of_counts fun _ => mem_counting

theorem loudness_counting (v q : Nat) (h : ∀ k : Counter, k.times settings = 0) :
    loudness (counting v q) settings =
      ⟨min Verbosity.maxCount v, min Verbosity.maxCount q⟩ := by
  have hverbose : Counter.verbose.times (counting v q) = v := by
    simp [Counter.times, counting, List.count_replicate, Counter.name]
  have hquiet : Counter.quiet.times (counting v q) = q := by
    simp [Counter.times, counting, List.count_replicate, Counter.name]
  simp [loudness, Counter.total, h, hverbose, hquiet]

theorem given?_counting (option : String) (v q : Nat) : given? option (counting v q) = none := by
  refine List.findSome?_eq_none_iff.mpr fun s hs => ?_
  obtain ⟨k, rfl⟩ := mem_counting hs
  rfl

theorem colourOf_counting (v q : Nat) (settings : List Setting) :
    colourOf (counting v q) settings = colourOf [] settings := by
  rw [colourOf, given?_counting]
  rfl

end Counting

end Prebuilt
