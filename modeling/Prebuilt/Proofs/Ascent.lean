import Mathlib.Data.List.Infix
import Prebuilt.Proofs.Joining

/-! The steps a path takes, and what going up through its spelling does to them: each path above has
the same steps but for some at the end, and no number of steps is left out. -/

namespace Prebuilt

namespace Path

/-- The segments that lead somewhere. -/
def solid (segments : List Segment) : List Segment := segments.filter fun s => !isBlank s

def steps (p : Path) : List Segment := solid p.segments

@[simp] theorem solid_append (l l' : List Segment) : solid (l ++ l') = solid l ++ solid l' :=
  List.filter_append ..

theorem solid_cons_blank {s : Segment} (h : isBlank s = true) (l : List Segment) :
    solid (s :: l) = solid l :=
  List.filter_cons_of_neg (by simp [h])

theorem solid_cons_step {s : Segment} (h : isBlank s = false) (l : List Segment) :
    solid (s :: l) = s :: solid l :=
  List.filter_cons_of_pos (by simp [h])

theorem isBlank_of_mem_solid {l : List Segment} {s : Segment} (h : s ∈ solid l) :
    isBlank s = false := by
  simpa using (List.mem_filter.mp h).2

theorem mem_chars_iff {c : Char} (hslash : c ≠ '/') (hdot : c ≠ '.') (p : Path) :
    c ∈ p.chars ↔ ∃ s ∈ p.steps, c ∈ s := by
  rw [mem_iff_of_splitOn hslash]
  constructor
  · rintro ⟨s, hs, hc⟩
    refine ⟨s, List.mem_filter.mpr ⟨hs, ?_⟩, hc⟩
    have hblank : s ≠ [] ∧ s ≠ ['.'] := by
      constructor <;> rintro rfl <;> simp [hdot] at hc
    simp [isBlank, hblank]
  · rintro ⟨s, hs, hc⟩
    exact ⟨s, (List.mem_filter.mp hs).1, hc⟩

section Join

variable {piece : Segment}

/-- A name joined to a path is its last segment and its last step. -/
theorem segments_join_name (p : Path) (hsep : '/' ∉ piece) :
    ∃ front, (p.join (ofChars piece)).segments = front ++ [piece] ∧ solid front = p.steps := by
  by_cases hp : p.chars = []
  · refine ⟨[], ?_, ?_⟩
    · rw [join_empty hp, segments_ofChars hsep, List.nil_append]
    · rw [steps, segments, hp]
      rfl
  · obtain ⟨init, last, hl⟩ := p.chars.eq_nil_or_concat'.resolve_left hp
    have hjoin := chars_join hl (isAbsolute_ofChars hsep)
    by_cases hs : last = '/'
    · refine ⟨init.splitOn '/', ?_, ?_⟩
      · rw [segments, hjoin, if_pos hs, List.splitOn_append_cons_self, chars_ofChars,
          List.splitOn_eq_singleton hsep]
      · rw [steps, segments, hl, hs, List.splitOn_append_cons_self, solid_append]
        exact (List.append_nil _).symm
    · refine ⟨p.segments, ?_, rfl⟩
      rw [segments, hjoin, if_neg hs, List.splitOn_append_cons_self, chars_ofChars,
        List.splitOn_eq_singleton hsep]
      rfl

theorem steps_join_name (p : Path) (hsep : '/' ∉ piece) (hpiece : isBlank piece = false) :
    (p.join (ofChars piece)).steps = p.steps ++ [piece] := by
  obtain ⟨front, hfront, hsteps⟩ := segments_join_name p hsep
  rw [steps, hfront, solid_append, hsteps, solid_cons_step hpiece]
  rfl

theorem isAbsolute_join_name (p : Path) (hsep : '/' ∉ piece) :
    (p.join (ofChars piece)).isAbsolute = p.isAbsolute := by
  by_cases hp : p.chars = []
  · rw [join_empty hp, isAbsolute_ofChars hsep, isAbsolute, hp]
    rfl
  · obtain ⟨init, last, hl⟩ := p.chars.eq_nil_or_concat'.resolve_left hp
    have hjoin := chars_join hl (isAbsolute_ofChars hsep)
    by_cases hs : last = '/'
    · have happend : (p.join (ofChars piece)).chars = p.chars ++ piece := by simp [hjoin, hl, hs]
      exact isAbsolute_append hp happend
    · rw [if_neg hs] at hjoin
      exact isAbsolute_append hp hjoin

end Join

section Above

variable {piece first : Segment} {reversed : List Segment}

theorem solid_reverse_dropWhile (l : List Segment) :
    solid (l.dropWhile isBlank).reverse = solid l.reverse := by
  induction l with
  | nil => rfl
  | cons s l ih =>
    by_cases hs : isBlank s = true
    · have hnone : solid [s] = [] := solid_cons_blank hs []
      rw [List.dropWhile_cons_of_pos hs, ih, List.reverse_cons, solid_append, hnone,
        List.append_nil]
    · rw [List.dropWhile_cons_of_neg hs]

theorem segments_upTo (hsep : ∀ s ∈ first :: reversed, '/' ∉ s)
    (hnot : ¬(first = [] ∧ (reversed.dropWhile isBlank).reverse = [])) :
    (upTo first reversed).segments = first :: (reversed.dropWhile isBlank).reverse := by
  have hfirst := hsep first List.mem_cons_self
  rw [upTo]
  cases hrest : (reversed.dropWhile isBlank).reverse with
  | nil =>
    have hne : first ≠ [] := fun he => hnot ⟨he, hrest⟩
    simp only [hne, if_false, segments_ofChars hfirst]
  | cons next rest =>
    have hall : ∀ s ∈ first :: next :: rest, '/' ∉ s := by
      intro s hs
      rcases List.mem_cons.mp hs with rfl | hs
      · exact hfirst
      · rw [← hrest, List.mem_reverse] at hs
        exact hsep s (List.mem_cons_of_mem first ((List.dropWhile_suffix _).mem hs))
    rw [segments, chars_ofChars, List.splitOn_intercalate _ hall (List.cons_ne_nil _ _)]

/-- Cutting off blank segments at the end takes no step away. -/
theorem steps_upTo (hsep : ∀ s ∈ first :: reversed, '/' ∉ s) :
    (upTo first reversed).steps = solid (first :: reversed.reverse) := by
  rw [← List.singleton_append, solid_append, ← solid_reverse_dropWhile reversed, ← solid_append,
    List.singleton_append]
  by_cases hroot : first = [] ∧ (reversed.dropWhile isBlank).reverse = []
  · rw [upTo, hroot.1, hroot.2]
    rfl
  · rw [steps, segments_upTo hsep hroot]

theorem isAbsolute_upTo (hsep : '/' ∉ first) :
    (upTo first reversed).isAbsolute = decide (first = []) := by
  rw [upTo]
  cases (reversed.dropWhile isBlank).reverse with
  | nil =>
    by_cases he : first = []
    · simp only [he, if_true]
      rfl
    · simp [he, isAbsolute_ofChars hsep]
  | cons next rest =>
    cases first with
    | nil => simp [isAbsolute]
    | cons c cs =>
      have hc : c ≠ '/' := fun hc => hsep (by simp [hc])
      simp [isAbsolute, hc]

theorem isAbsolute_of_mem_aboveSegments (hsep : '/' ∉ first) {p : Path}
    (hp : p ∈ aboveSegments first reversed) : p.isAbsolute = decide (first = []) := by
  induction reversed with
  | nil =>
    by_cases he : first = []
    · simp [aboveSegments, he] at hp
    · simp only [aboveSegments, he, if_false, List.mem_singleton] at hp
      rw [hp, decide_eq_false he]
      rfl
  | cons s reversed ih =>
    by_cases hs : isBlank s = true
    · rw [aboveSegments, if_pos hs] at hp
      exact ih hp
    · rw [aboveSegments, if_neg hs] at hp
      rcases List.mem_cons.mp hp with rfl | hp
      · exact isAbsolute_upTo hsep
      · exact ih hp

theorem inits_concat {α : Type} (l : List α) (x : α) :
    (l ++ [x]).inits = l.inits ++ [l ++ [x]] := by
  simp [List.inits_append]

theorem reverse_inits_concat {α : Type} (l : List α) (x : α) :
    (l ++ [x]).inits.reverse = (l ++ [x]) :: l.inits.reverse := by
  rw [inits_concat, List.reverse_concat]

/-- What is found first among the beginnings of a list, longest first, is the longest. -/
theorem longest_of_find_inits {α : Type} {found : List α → Bool} {l init : List α}
    (h : l.inits.reverse.find? found = some init) :
    init <+: l ∧ found init = true ∧
      ∀ longer, longer <+: l → init.length < longer.length → found longer = false := by
  induction l using List.reverseRecOn with
  | nil =>
    have hfound := List.find?_some h
    obtain rfl : init = [] := by simpa using List.mem_of_find?_eq_some h
    refine ⟨List.nil_prefix, hfound, fun longer hl hlt => ?_⟩
    simp [List.prefix_nil.mp hl] at hlt
  | append_singleton l x ih =>
    rw [reverse_inits_concat, List.find?_cons] at h
    split at h
    · next hx =>
      obtain rfl := Option.some.inj h
      refine ⟨List.prefix_rfl, hx, fun longer hl hlt => ?_⟩
      exact absurd hl.length_le (by omega)
    · next hx =>
      obtain ⟨hinit, hfound, hlongest⟩ := ih h
      refine ⟨hinit.trans (List.prefix_append l [x]), hfound, fun longer hl hlt => ?_⟩
      rcases List.prefix_concat_iff.mp hl with rfl | hl
      · exact hx
      · exact hlongest longer hl hlt

theorem slash_notMem_of_cons {s : Segment} (hsep : ∀ t ∈ first :: s :: reversed, '/' ∉ t) :
    ∀ t ∈ first :: reversed, '/' ∉ t := by
  rw [List.forall_mem_cons, List.forall_mem_cons] at hsep
  exact List.forall_mem_cons.mpr ⟨hsep.1, hsep.2.2⟩

/-- One step less each time. A dot in front is a path of its own that takes no step. -/
theorem steps_aboveSegments (hsep : ∀ s ∈ first :: reversed, '/' ∉ s) :
    solid (first :: reversed.reverse) :: (aboveSegments first reversed).map steps =
      (solid (first :: reversed.reverse)).inits.reverse ++ if first = ['.'] then [[]] else [] := by
  induction reversed with
  | nil =>
    by_cases hnil : first = []
    · subst hnil
      rfl
    · by_cases hdot : first = ['.']
      · subst hdot
        rfl
      · have hsolid : solid [first] = [first] :=
          solid_cons_step (by simp [isBlank, hnil, hdot]) []
        simp only [aboveSegments, List.reverse_nil, hsolid, hnil, hdot, if_false]
        rfl
  | cons s reversed ih =>
    have hsep' : ∀ t ∈ first :: reversed, '/' ∉ t := slash_notMem_of_cons hsep
    have hcons : solid (first :: (s :: reversed).reverse) =
        solid (first :: reversed.reverse) ++ solid [s] := by
      rw [List.reverse_cons, ← List.cons_append, solid_append]
    -- a blank segment is skipped on the way up and is no step either
    by_cases hs : isBlank s = true
    · have hnone : solid [s] = [] := solid_cons_blank hs []
      rw [hcons, hnone, List.append_nil, aboveSegments, if_pos hs, ih hsep']
    · have hone : solid [s] = [s] := solid_cons_step (by simpa using hs) []
      rw [hcons, hone, aboveSegments, if_neg hs, List.map_cons, steps_upTo hsep', ih hsep',
        reverse_inits_concat, List.cons_append]

end Above

section Ancestors

variable {p : Path}

theorem exists_segments (p : Path) : ∃ first rest, p.segments = first :: rest :=
  exists_first_piece '/' p.chars

theorem slash_notMem_of_mem_segments {s : Segment} (hs : s ∈ p.segments) : '/' ∉ s :=
  notMem_of_mem_splitOn hs

theorem slash_notMem_of_segments {first : Segment} {rest : List Segment}
    (hseg : p.segments = first :: rest) : ∀ s ∈ first :: rest.reverse, '/' ∉ s := by
  intro s hs
  apply slash_notMem_of_mem_segments (p := p)
  simpa [hseg] using hs

/-- The steps of a path and of all above it are the beginnings of its steps, longest first. -/
theorem steps_ancestors : ∃ again, (∀ l ∈ again, l = []) ∧
    p.ancestors.map steps = p.steps.inits.reverse ++ again := by
  obtain ⟨first, rest, hseg⟩ := p.exists_segments
  refine ⟨if first = ['.'] then [[]] else [], by split <;> simp, ?_⟩
  have habove := steps_aboveSegments (slash_notMem_of_segments hseg)
  rw [List.reverse_reverse] at habove
  rw [ancestors, List.map_cons, above, hseg, steps, hseg]
  exact habove

theorem steps_prefix_of_mem_ancestors {q : Path} (hq : q ∈ p.ancestors) : q.steps <+: p.steps := by
  obtain ⟨again, hagain, hsteps⟩ := steps_ancestors (p := p)
  have hmem : q.steps ∈ p.ancestors.map steps := List.mem_map_of_mem hq
  rw [hsteps, List.mem_append, List.mem_reverse, List.mem_inits] at hmem
  rcases hmem with hprefix | hnone
  · exact hprefix
  · rw [hagain _ hnone]
    exact List.nil_prefix

/-- A search up the spelling is a search through the beginnings of the steps. -/
theorem find_ancestors (found : List Segment → Bool) :
    (p.ancestors.find? fun q => found q.steps).map steps = p.steps.inits.reverse.find? found := by
  obtain ⟨again, hagain, hsteps⟩ := steps_ancestors (p := p)
  have hmap : (p.ancestors.find? fun q => found q.steps).map steps =
      (p.ancestors.map steps).find? found := by
    rw [List.find?_map]
    rfl
  rw [hmap, hsteps, List.find?_append]
  cases hfind : p.steps.inits.reverse.find? found with
  | some l => rfl
  | none =>
    -- what comes again at the end is the empty beginning, which was no hit before
    have hstart : found [] = false := by
      simpa using List.find?_eq_none.mp hfind [] (by simp)
    exact List.find?_eq_none.mpr fun l hl => by simp [hagain l hl, hstart]

theorem isAbsolute_eq_decide (hne : p.chars ≠ []) {first : Segment} {rest : List Segment}
    (hseg : p.segments = first :: rest) : p.isAbsolute = decide (first = []) := by
  have hsep : '/' ∉ first := slash_notMem_of_mem_segments (hseg ▸ List.mem_cons_self)
  have hchars : ['/'].intercalate (p.chars.splitOn '/') = p.chars := List.intercalate_splitOn '/'
  rw [← segments, hseg] at hchars
  cases first with
  | nil =>
    cases rest with
    | nil => exact absurd hchars.symm hne
    | cons next rest => simp [isAbsolute, ← hchars]
  | cons c cs =>
    have hc : c ≠ '/' := fun hc => hsep (by simp [hc])
    cases rest with
    | nil => simp [isAbsolute, ← hchars, hc]
    | cons next rest => simp [isAbsolute, ← hchars, hc]

theorem isAbsolute_of_mem_ancestors (hne : p.chars ≠ []) {q : Path} (hq : q ∈ p.ancestors) :
    q.isAbsolute = p.isAbsolute := by
  obtain ⟨first, rest, hseg⟩ := p.exists_segments
  rcases List.mem_cons.mp hq with rfl | hq
  · rfl
  · have hsep : '/' ∉ first := slash_notMem_of_mem_segments (hseg ▸ List.mem_cons_self)
    rw [above, hseg] at hq
    rw [isAbsolute_of_mem_aboveSegments hsep hq, isAbsolute_eq_decide hne hseg]

end Ancestors

end Path

end Prebuilt
