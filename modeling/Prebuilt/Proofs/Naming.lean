import Mathlib.Data.List.Basic
import Prebuilt.Installed
import Prebuilt.Proofs.Joining

/-! What a package name may be. The text that is accepted is a part, or a scope sign, a part, a
slash and a part. A part holds no slash and does not start with a dot, so that a name leads to one
or two proper directories, and different names lead to different ones. -/

namespace Prebuilt.PackageName

/-- `[a-z0-9~-]`. -/
def Leading (c : Char) : Prop :=
  ('a' ≤ c ∧ c ≤ 'z') ∨ ('0' ≤ c ∧ c ≤ '9') ∨ c = '~' ∨ c = '-'

/-- `[a-z0-9._~-]`. -/
def Inner (c : Char) : Prop := Leading c ∨ c = '.' ∨ c = '_'

/-- A leading character and any number of inner ones. -/
def Part : List Char → Prop
  | [] => False
  | c :: cs => Leading c ∧ ∀ d ∈ cs, Inner d

section Parts

variable {c : Char} {part : List Char}

theorem isLeading_iff : isLeading c = true ↔ Leading c := by
  simp [isLeading, Leading, or_assoc]

theorem isInner_iff : isInner c = true ↔ Inner c := by
  simp [isInner, Inner, isLeading_iff, or_assoc]

theorem isPart_iff : isPart part = true ↔ Part part := by
  cases part with
  | nil => simp [isPart, Part]
  | cons c cs => simp [isPart, Part, isLeading_iff, isInner_iff]

instance : DecidablePred Leading := fun _ => decidable_of_iff _ isLeading_iff

instance : DecidablePred Inner := fun _ => decidable_of_iff _ isInner_iff

theorem Leading.isAscii (h : Leading c) : c.toNat < 128 := by
  rcases h with ⟨-, h⟩ | ⟨-, h⟩ | rfl | rfl
  · exact Nat.lt_of_le_of_lt (UInt32.le_iff_toNat_le.mp h) (by decide)
  · exact Nat.lt_of_le_of_lt (UInt32.le_iff_toNat_le.mp h) (by decide)
  · decide
  · decide

theorem Inner.isAscii (h : Inner c) : c.toNat < 128 := by
  rcases h with h | rfl | rfl
  · exact h.isAscii
  · decide
  · decide

theorem Part.exists_leading (h : Part part) : ∃ c cs, part = c :: cs ∧ Leading c := by
  cases part with
  | nil => exact h.elim
  | cons c cs => exact ⟨c, cs, rfl, h.1⟩

theorem Part.inner (h : Part part) (hc : c ∈ part) : Inner c := by
  cases part with
  | nil => exact h.elim
  | cons d cs =>
    rcases List.mem_cons.mp hc with rfl | hc
    · exact .inl h.1
    · exact h.2 c hc

theorem Part.slash_notMem (h : Part part) : '/' ∉ part :=
  fun hm => absurd (h.inner hm) (by decide)

end Parts

section Spelling

variable {cs : List Char}

/-- Cutting at the first slash takes a scope off, as a part holds none. -/
theorem cut_scoped {scope part : List Char} (hs : Part scope) :
    (scope ++ '/' :: part).takeWhile (· ≠ '/') = scope ∧
      (scope ++ '/' :: part).dropWhile (· ≠ '/') = '/' :: part := by
  have hkeep : ∀ c ∈ scope, decide (c ≠ '/') = true := fun c hc =>
    decide_eq_true fun he => hs.slash_notMem (he ▸ hc)
  rw [List.takeWhile_append_of_pos hkeep, List.dropWhile_append_of_pos hkeep]
  simp

theorem spelled_iff : Spelled cs ↔ Part cs ∨ ∃ scope part,
    Part scope ∧ Part part ∧ cs = '@' :: scope ++ '/' :: part := by
  constructor
  · rintro (h | ⟨hs, hp⟩)
    · exact .inl (isPart_iff.mp h)
    · exact .inr ⟨_, _, isPart_iff.mp hs, isPart_iff.mp hp, rfl⟩
  · rintro (h | ⟨scope, part, hs, hp, rfl⟩)
    · exact .plain (isPart_iff.mpr h)
    · exact .scoped (isPart_iff.mpr hs) (isPart_iff.mpr hp)

theorem isSpelled_of_spelled (h : Spelled cs) : isSpelled cs = true := by
  rcases h with h | ⟨hs, hp⟩
  · obtain ⟨c, rest, rfl, hc⟩ := (isPart_iff.mp h).exists_leading
    have hat : c ≠ '@' := fun he => absurd (he ▸ hc) (by decide)
    rw [isSpelled, if_neg hat, h]
  · obtain ⟨htake, hdrop⟩ := cut_scoped (isPart_iff.mp hs)
    rw [List.cons_append, isSpelled, if_pos rfl, hdrop]
    simp only [htake, hs, hp, Bool.and_self]

theorem spelled_of_isSpelled (h : isSpelled cs = true) : Spelled cs := by
  cases cs with
  | nil => simp [isSpelled] at h
  | cons c cs =>
    by_cases hat : c = '@'
    · rw [isSpelled, if_pos hat] at h
      cases hd : cs.dropWhile (· ≠ '/') with
      | nil => simp only [hd, Bool.false_eq_true] at h
      | cons slash part =>
        simp only [hd, Bool.and_eq_true] at h
        obtain ⟨hstop, hcut⟩ := cut_of_dropWhile hd
        have hslash : slash = '/' := by simpa using hstop
        rw [hat, hcut, hslash]
        exact .scoped h.1 h.2
    · rw [isSpelled, if_neg hat] at h
      exact .plain h

theorem isSpelled_iff : isSpelled cs = true ↔ Spelled cs :=
  ⟨spelled_of_isSpelled, isSpelled_of_spelled⟩

end Spelling

section Directories

variable {name : PackageName}

/-- A piece of a path that leads down into a directory of its own. -/
structure Proper (piece : Segment) : Prop where
  ne_nil : piece ≠ []
  ne_here : piece ≠ ['.']
  ne_up : piece ≠ ['.', '.']
  slash_notMem : '/' ∉ piece

theorem Proper.not_blank {piece : Segment} (h : Proper piece) : Path.isBlank piece = false := by
  simp [Path.isBlank, h.ne_nil, h.ne_here]

theorem Proper.componentOf {piece : Segment} (h : Proper piece) :
    Path.componentOf piece = .name piece := by
  simp [Path.componentOf, h.ne_up, h.ne_here]

theorem proper_cons {c : Char} {cs : List Char} (hdot : c ≠ '.') (hc : c ≠ '/') (hcs : '/' ∉ cs) :
    Proper (c :: cs) := by
  constructor <;> simp [hdot, Ne.symm hc, hcs]

theorem Part.proper {part : List Char} (h : Part part) : Proper part := by
  have hsep := h.slash_notMem
  obtain ⟨c, cs, rfl, hc⟩ := h.exists_leading
  rw [List.mem_cons, not_or] at hsep
  exact proper_cons (fun he => absurd (he ▸ hc) (by decide)) (Ne.symm hsep.1) hsep.2

theorem Part.proper_scope {scope : List Char} (h : Part scope) : Proper ('@' :: scope) :=
  proper_cons (by decide) (by decide) h.slash_notMem

theorem splitOn_part {part : List Char} (h : Part part) : part.splitOn '/' = [part] :=
  List.splitOn_eq_singleton h.slash_notMem

theorem splitOn_scoped {scope part : List Char} (hs : Part scope) (hp : Part part) :
    ('@' :: scope ++ '/' :: part).splitOn '/' = ['@' :: scope, part] := by
  rw [List.splitOn_append_cons_self_of_not_mem hs.proper_scope.slash_notMem, splitOn_part hp]

theorem Spelled.proper {cs : List Char} (h : Spelled cs) :
    ∀ piece ∈ cs.splitOn '/', Proper piece := by
  rcases spelled_iff.mp h with h | ⟨scope, part, hs, hp, rfl⟩
  · rw [splitOn_part h, List.forall_mem_singleton]
    exact h.proper
  · rw [splitOn_scoped hs hp, List.forall_mem_cons, List.forall_mem_singleton]
    exact ⟨hs.proper_scope, hp.proper⟩

theorem Spelled.inner {cs : List Char} (h : Spelled cs) :
    ∀ c ∈ cs, Inner c ∨ c = '@' ∨ c = '/' := by
  intro c hc
  rcases spelled_iff.mp h with h | ⟨scope, part, hs, hp, rfl⟩
  · exact .inl (h.inner hc)
  · simp only [List.cons_append, List.mem_cons, List.mem_append] at hc
    rcases hc with hat | hc | hslash | hc
    · exact .inr (.inl hat)
    · exact .inl (hs.inner hc)
    · exact .inr (.inr hslash)
    · exact .inl (hp.inner hc)

theorem Spelled.count_slash {cs : List Char} (h : Spelled cs) : cs.count '/' ≤ 1 := by
  rcases spelled_iff.mp h with h | ⟨scope, part, hs, hp, rfl⟩
  · simp [List.count_eq_zero_of_not_mem h.slash_notMem]
  · simp [List.count_eq_zero_of_not_mem hs.slash_notMem,
      List.count_eq_zero_of_not_mem hp.slash_notMem]

theorem components_below (h : ∀ piece ∈ name.text.toList.splitOn '/', Proper piece) (dir : Path) :
    (name.below dir).components =
      dir.components ++ (name.text.toList.splitOn '/').map Path.componentOf := by
  rw [below, components, List.foldl_map]
  exact Path.components_join_names (fun _ hp => notMem_of_mem_splitOn hp)
    (fun piece hp => (h piece hp).not_blank) dir

theorem eq_of_same_below {other : PackageName} {dir : Path} (h : Spelled name.text.toList)
    (h' : Spelled other.text.toList) (hsame : (name.below dir).same (other.below dir) = true) :
    name = other := by
  rw [Path.same, beq_iff_eq, components_below h.proper, components_below h'.proper] at hsame
  have hcut : name.text.toList.splitOn '/' = other.text.toList.splitOn '/' :=
    List.map_injective_iff.mpr Path.componentOf_injective (List.append_cancel_left hsame)
  have htext : name.text.toList = other.text.toList := splitOn_injective '/' hcut
  cases name
  cases other
  exact congrArg PackageName.mk (String.toList_inj.mp htext)

end Directories

section Parsing

variable {s : String} {name : PackageName}

theorem isValid_iff : isValid s = true ↔ s.utf8ByteSize ≤ 214 ∧ Spelled s.toList := by
  rw [isValid, Bool.and_eq_true, decide_eq_true_eq, isSpelled_iff]
  rfl

theorem parse_eq_ok_iff :
    parse s = .ok name ↔ (s.utf8ByteSize ≤ 214 ∧ Spelled s.toList) ∧ name = ⟨s⟩ := by
  rw [← isValid_iff, parse]
  by_cases hv : isValid s = true
  · rw [if_pos hv, Except.ok.injEq, eq_comm]
    exact (and_iff_right hv).symm
  · rw [if_neg hv]
    exact ⟨fun h => (nomatch h), fun h => absurd h.1 hv⟩

theorem toList_scoped (scope part : String) :
    ("@" ++ scope ++ "/" ++ part).toList = '@' :: scope.toList ++ '/' :: part.toList := by
  simp

theorem spelled_toList_iff : Spelled s.toList ↔
    Part s.toList ∨ ∃ scope part : String,
      Part scope.toList ∧ Part part.toList ∧ s = "@" ++ scope ++ "/" ++ part := by
  rw [spelled_iff]
  refine or_congr_right ⟨?_, ?_⟩
  · rintro ⟨scope, part, hs, hp, hcut⟩
    refine ⟨String.ofList scope, String.ofList part, ?_, ?_, String.toList_inj.mp ?_⟩
    · rwa [String.toList_ofList]
    · rwa [String.toList_ofList]
    · rw [hcut, toList_scoped, String.toList_ofList, String.toList_ofList]
  · rintro ⟨scope, part, hs, hp, rfl⟩
    exact ⟨scope.toList, part.toList, hs, hp, toList_scoped scope part⟩

theorem components_of_part (h : Part s.toList) : (⟨s⟩ : PackageName).components = [s] := by
  simp [components, splitOn_part h]

theorem components_of_scoped {scope part : String} (hs : Part scope.toList)
    (hp : Part part.toList) :
    (⟨"@" ++ scope ++ "/" ++ part⟩ : PackageName).components = ["@" ++ scope, part] := by
  rw [components, toList_scoped, splitOn_scoped hs hp]
  simp [String.ofList_cons]

theorem components_of_spelled (h : Spelled s.toList) :
    (Part s.toList ∧ (⟨s⟩ : PackageName).components = [s]) ∨
      ∃ scope part : String, Part scope.toList ∧ Part part.toList ∧
        s = "@" ++ scope ++ "/" ++ part ∧
        (⟨s⟩ : PackageName).components = ["@" ++ scope, part] := by
  rcases spelled_toList_iff.mp h with h | ⟨scope, part, hs, hp, rfl⟩
  · exact .inl ⟨h, components_of_part h⟩
  · exact .inr ⟨scope, part, hs, hp, rfl, components_of_scoped hs hp⟩

theorem proper_of_mem_components (h : ∀ piece ∈ name.text.toList.splitOn '/', Proper piece)
    {c : String} (hc : c ∈ name.components) : c ≠ "" ∧ c ≠ "." ∧ c ≠ ".." ∧ '/' ∉ c.toList := by
  obtain ⟨piece, hpiece, rfl⟩ := List.mem_map.mp hc
  have hchars (text : String) (he : String.ofList piece = text) : piece = text.toList := by
    rw [← he, String.toList_ofList]
  have hproper := h piece hpiece
  refine ⟨fun he => hproper.ne_nil (hchars _ he), fun he => hproper.ne_here (hchars _ he),
    fun he => hproper.ne_up (hchars _ he), ?_⟩
  rw [String.toList_ofList]
  exact hproper.slash_notMem

/-- A text is accepted exactly if it has one of the two forms within the limit. What is accepted
reads back as it was given, and its directories tell it from any other name, wherever they are. -/
theorem accepts_parts_within_limit (s : String) :
    ((∃ name, parse s = .ok name) ↔ s.utf8ByteSize ≤ 214 ∧
      (Part s.toList ∨ ∃ scope part : String,
        Part scope.toList ∧ Part part.toList ∧ s = "@" ++ scope ++ "/" ++ part)) ∧
    ∀ name, parse s = .ok name →
      name.text = s ∧ parse name.text = .ok name ∧
      (∀ c ∈ s.toList, c.toNat < 128 ∧ c ≠ '\n') ∧ s.toList.count '/' ≤ 1 ∧
      ((Part s.toList ∧ name.components = [s]) ∨
        ∃ scope part : String, Part scope.toList ∧ Part part.toList ∧
          s = "@" ++ scope ++ "/" ++ part ∧ name.components = ["@" ++ scope, part]) ∧
      "/".intercalate name.components = s ∧
      (∀ c ∈ name.components, c ≠ "" ∧ c ≠ "." ∧ c ≠ ".." ∧ '/' ∉ c.toList) ∧
      ∀ (t : String) (other : PackageName) (dir : Path), parse t = .ok other →
        (name.below (dir.join modulesDir)).same (other.below (dir.join modulesDir)) = true →
        name = other := by
  constructor
  · rw [← spelled_toList_iff]
    constructor
    · rintro ⟨name, h⟩
      exact (parse_eq_ok_iff.mp h).1
    · intro h
      exact ⟨⟨s⟩, parse_eq_ok_iff.mpr ⟨h, rfl⟩⟩
  · intro name hparse
    obtain ⟨⟨-, hspelled⟩, rfl⟩ := parse_eq_ok_iff.mp hparse
    have hforms := components_of_spelled hspelled
    refine ⟨rfl, hparse, ?ascii, hspelled.count_slash, hforms, ?joined,
      fun c hc => proper_of_mem_components hspelled.proper hc, ?apart⟩
    case ascii =>
      intro c hc
      rcases hspelled.inner c hc with h | rfl | rfl
      · exact ⟨h.isAscii, fun he => absurd (he ▸ h) (by decide)⟩
      · decide
      · decide
    case joined =>
      rcases hforms with ⟨-, h⟩ | ⟨scope, part, -, -, ht, h⟩
      · rw [h]
        rfl
      · rw [h, ht]
        rfl
    case apart =>
      intro t other dir hother hsame
      obtain ⟨⟨-, hspelled'⟩, rfl⟩ := parse_eq_ok_iff.mp hother
      exact eq_of_same_below hspelled hspelled' hsame

example : ∀ bad ∈ ["", "Foo", "foo bar", "@scope", "@scope/", "foo/bar", ".hidden", "foo\n"],
    parse bad = .error ⟨bad⟩ := by
  decide +kernel

/-- A scoped name takes two directories, and no other name takes the same two. -/
theorem canvas_takes_two_directories :
    parse "@napi-rs/canvas" = .ok ⟨"@napi-rs/canvas"⟩ ∧
      (⟨"@napi-rs/canvas"⟩ : PackageName).components = ["@napi-rs", "canvas"] ∧
      ∀ (t : String) (other : PackageName) (dir : Path), parse t = .ok other →
        ((⟨"@napi-rs/canvas"⟩ : PackageName).below (dir.join modulesDir)).same
          (other.below (dir.join modulesDir)) = true →
        ⟨"@napi-rs/canvas"⟩ = other := by
  have hparse : parse "@napi-rs/canvas" = .ok ⟨"@napi-rs/canvas"⟩ := by decide +kernel
  obtain ⟨-, -, -, -, -, -, -, hapart⟩ :=
    (accepts_parts_within_limit "@napi-rs/canvas").2 _ hparse
  exact ⟨hparse, by decide +kernel, hapart⟩

end Parsing

end Prebuilt.PackageName
