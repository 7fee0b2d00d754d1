import Mathlib.Data.List.Infix
import Prebuilt.Proofs.Ascent

/-! What is above a path. Each path above has the components of the one before it but the last,
down to the root or to the empty path, and is written as the shortest beginning of the text that has
these components. -/

namespace Prebuilt

namespace Path

section Components

variable {first : Segment} {reversed : List Segment} {p q : Path}

/-- What the first of several segments amounts to. -/
def opening (first : Segment) : List Component :=
  if first = [] then [.root] else [componentOf first]

theorem named_eq_map_solid (l : List Segment) : named l = (solid l).map componentOf := rfl

theorem components_eq_opening (hne : p.chars ≠ []) {rest : List Segment}
    (hseg : p.segments = first :: rest) : p.components = opening first ++ named rest := by
  rw [components_of_segments hseg, isAbsolute_eq_decide hne hseg, opening]
  by_cases hfirst : first = []
  · simp [hfirst]
  · simp [hfirst]

theorem components_upTo (hsep : ∀ s ∈ first :: reversed, '/' ∉ s) :
    (upTo first reversed).components = opening first ++ named reversed.reverse := by
  have hnamed : named reversed.reverse = named (reversed.dropWhile isBlank).reverse := by
    rw [named_eq_map_solid, named_eq_map_solid, solid_reverse_dropWhile]
  rw [hnamed]
  by_cases hroot : first = [] ∧ (reversed.dropWhile isBlank).reverse = []
  · rw [upTo, hroot.1, hroot.2]
    rfl
  · have hseg := segments_upTo hsep hroot
    refine components_eq_opening (fun hnil => hroot ?_) hseg
    rw [segments, hnil] at hseg
    exact ⟨(List.cons.inj hseg).1.symm, (List.cons.inj hseg).2.symm⟩

/-- Backwards through the beginnings of a list. The empty one may be left out. -/
theorem reverse_drop_inits_concat {α : Type} {k : Nat} (hk : k ≤ 1) (l : List α) (x : α) :
    ((l ++ [x]).inits.drop k).reverse = (l ++ [x]) :: (l.inits.drop k).reverse := by
  have hlen : k ≤ l.inits.length := by
    rw [List.length_inits]
    omega
  rw [inits_concat, List.drop_append_of_le_length hlen, List.reverse_concat]

/-- One component less each time. An empty first segment is a root, which is never left. -/
theorem components_aboveSegments (hsep : ∀ s ∈ first :: reversed, '/' ∉ s) :
    (opening first ++ named reversed.reverse) :: (aboveSegments first reversed).map components =
      ((opening first ++ named reversed.reverse).inits.drop
        (if first = [] then 1 else 0)).reverse := by
  induction reversed with
  | nil =>
    by_cases hfirst : first = []
    · subst hfirst
      rfl
    · have hopen : opening first = [componentOf first] := if_neg hfirst
      simp only [aboveSegments, hfirst, if_false, hopen]
      rfl
  | cons s reversed ih =>
    have hsep' : ∀ t ∈ first :: reversed, '/' ∉ t := slash_notMem_of_cons hsep
    have hcons : named (s :: reversed).reverse = named reversed.reverse ++ named [s] := by
      rw [List.reverse_cons, named_append]
    -- a blank segment is skipped on the way up and is no component either
    by_cases hs : isBlank s = true
    · have hnone : named [s] = [] := by rw [named_eq_map_solid, solid_cons_blank hs]; rfl
      rw [hcons, hnone, List.append_nil, aboveSegments, if_pos hs]
      exact ih hsep'
    · have hone : named [s] = [componentOf s] := named_singleton (by simpa using hs)
      have hk : (if first = [] then 1 else 0) ≤ 1 := by split <;> omega
      rw [hcons, hone, ← List.append_assoc, aboveSegments, if_neg hs, List.map_cons,
        components_upTo hsep', ih hsep', reverse_drop_inits_concat hk]

theorem eq_of_chars (h : p.chars = q.chars) : p = q := by
  cases p
  cases q
  exact congrArg Path.mk (String.toList_inj.mp h)

/-- Going up, the components are taken away one by one, except for a root. -/
theorem components_ancestors (p : Path) : p.ancestors.map components =
    (p.components.inits.drop (if p.isAbsolute then 1 else 0)).reverse := by
  by_cases hne : p.chars = []
  · have hp : p = ⟨""⟩ := eq_of_chars hne
    subst hp
    rfl
  · obtain ⟨first, rest, hseg⟩ := p.exists_segments
    have habove := components_aboveSegments (slash_notMem_of_segments hseg)
    rw [List.reverse_reverse, ← components_eq_opening hne hseg] at habove
    rw [ancestors, List.map_cons, above, hseg, isAbsolute_eq_decide hne hseg, habove]
    by_cases hfirst : first = []
    · simp [hfirst]
    · simp [hfirst]

/-- What is next above a path has the same components without the last one. -/
theorem exists_parent {front : List Component} {last : Component}
    (h : p.components = front ++ [last]) (hroot : p.isAbsolute = true → front ≠ []) :
    ∃ q, p.parent? = some q ∧ q.components = front := by
  have hk : (if p.isAbsolute then 1 else 0) ≤ 1 := by split <;> omega
  have hall := components_ancestors p
  rw [h, reverse_drop_inits_concat hk, ancestors, List.map_cons, List.cons.injEq] at hall
  have hfirst : (front.inits.drop (if p.isAbsolute then 1 else 0)).reverse.head? = some front := by
    obtain hnil | ⟨init, x, rfl⟩ := front.eq_nil_or_concat'
    · have hrel : ¬ p.isAbsolute = true := fun habs => hroot habs hnil
      rw [hnil, if_neg hrel]
      rfl
    · rw [reverse_drop_inits_concat hk, List.head?_cons]
  rw [← hall.2, List.head?_map, Option.map_eq_some_iff] at hfirst
  exact hfirst

end Components

section Text

variable {first last : Segment} {front : List Char} {p q : Path}

/-- The segment a component is written as, with the slash for a root. -/
def written : Component → Segment
  | .root => ['/']
  | .here => ['.']
  | .up => ['.', '.']
  | .name s => s

theorem written_componentOf (s : Segment) : written (componentOf s) = s := by
  unfold componentOf
  by_cases hup : s = ['.', '.']
  · simp [hup, written]
  · by_cases hhere : s = ['.']
    · simp [hhere, written]
    · simp [hup, hhere, written]

/-- How much of a path its components take up. -/
def weight (p : Path) : Nat := (p.components.flatMap written).length

theorem flatMap_written_named (l : List Segment) :
    (named l).flatMap written = (solid l).flatten := by
  rw [named_eq_map_solid, List.flatMap_map, List.flatMap_congr fun s _ => written_componentOf s,
    List.flatMap_id']

theorem weight_of_no_slash (hsep : '/' ∉ last) : (ofChars last).weight = last.length := by
  have hseg := segments_ofChars hsep
  rw [weight, components_of_segments hseg, isAbsolute_ofChars hsep]
  by_cases hlast : last = []
  · subst hlast
    rfl
  · have hname : named [] = [] := rfl
    simp [hlast, hname, written_componentOf]

/-- Behind a slash a blank segment takes up nothing, and any other all its characters. -/
def weightBehind (last : Segment) : Nat := if isBlank last then 0 else last.length

theorem weight_slash (hsep : '/' ∉ last) : (ofChars (front ++ '/' :: last)).weight =
    (if front = [] then 1 else (ofChars front).weight) + weightBehind last := by
  have hlast : ((named [last]).flatMap written).length = weightBehind last := by
    rw [flatMap_written_named, weightBehind]
    by_cases hblank : isBlank last = true
    · simp [hblank, solid]
    · simp [hblank, solid]
  obtain ⟨first, rest, hcut⟩ := exists_first_piece '/' front
  have hseg : (ofChars (front ++ '/' :: last)).segments = first :: (rest ++ [last]) := by
    rw [segments, chars_ofChars, List.splitOn_append_cons_self, hcut,
      List.splitOn_eq_singleton hsep, List.cons_append]
  have hne : (ofChars (front ++ '/' :: last)).chars ≠ [] := by simp
  rw [weight, components_eq_opening hne hseg, named_append, ← List.append_assoc,
    List.flatMap_append, List.length_append, hlast]
  by_cases hfront : front = []
  · subst hfront
    obtain ⟨rfl, rfl⟩ := List.cons.inj hcut
    rfl
  · have hne' : (ofChars front).chars ≠ [] := by simpa using hfront
    have hseg' : (ofChars front).segments = first :: rest := by
      rw [segments, chars_ofChars, hcut]
    rw [if_neg hfront, weight, components_eq_opening hne' hseg']

theorem weightBehind_le_concat (last : Segment) (c : Char) :
    weightBehind last ≤ weightBehind (last ++ [c]) := by
  unfold weightBehind
  by_cases hblank : isBlank last = true
  · simp [hblank]
  · have hkept : isBlank (last ++ [c]) = false := by
      cases last with
      | nil => simp [isBlank] at hblank
      | cons d last => simp [isBlank]
    simp [hblank, hkept]

theorem weightBehind_lt (last : Segment) (c : Char) (hkept : isBlank (last ++ [c]) = false) :
    weightBehind last < weightBehind (last ++ [c]) := by
  unfold weightBehind
  by_cases hblank : isBlank last = true
  · simp [hblank, hkept]
  · simp [hblank, hkept]

theorem eq_slash_of_mem {cs : List Char} (h : '/' ∈ cs) :
    ∃ front last, cs = front ++ '/' :: last ∧ '/' ∉ last := by
  obtain ⟨before, after, hcut, hbefore⟩ := List.eq_append_cons_of_mem (List.mem_reverse.mpr h)
  refine ⟨after.reverse, before.reverse, ?_, by simpa using hbefore⟩
  have hrev := congrArg List.reverse hcut
  simpa using hrev

/-- More text never takes components away. -/
theorem weight_le_concat (cs : List Char) (c : Char) :
    (ofChars cs).weight ≤ (ofChars (cs ++ [c])).weight := by
  by_cases hc : c = '/'
  · subst hc
    rw [weight_slash List.not_mem_nil]
    by_cases hcs : cs = []
    · subst hcs
      exact Nat.zero_le _
    · simp [hcs]
  · by_cases hslash : '/' ∈ cs
    · obtain ⟨front, last, rfl, hsep⟩ := eq_slash_of_mem hslash
      have hsep' : '/' ∉ last ++ [c] := by simp [hsep, Ne.symm hc]
      have hmore := weightBehind_le_concat last c
      rw [List.append_assoc, List.cons_append, weight_slash hsep, weight_slash hsep']
      omega
    · have hsep' : '/' ∉ cs ++ [c] := by simp [hslash, Ne.symm hc]
      rw [weight_of_no_slash hslash, weight_of_no_slash hsep', List.length_append]
      omega

theorem weight_mono {cs cs' : List Char} (h : cs <+: cs') :
    (ofChars cs).weight ≤ (ofChars cs').weight := by
  obtain ⟨more, rfl⟩ := h
  induction more using List.reverseRecOn with
  | nil => simp
  | append_singleton more c ih =>
    have hh := weight_le_concat (cs ++ more) c
    rw [List.append_assoc] at hh
    exact ih.trans hh

/-- No character at the end is there for nothing. -/
def Tight (p : Path) : Prop := ∀ init c, p.chars = init ++ [c] → (ofChars init).weight < p.weight

theorem tight_of_no_slash (hsep : '/' ∉ last) : (ofChars last).Tight := by
  intro init c h
  rw [chars_ofChars] at h
  have hsep' : '/' ∉ init := fun hin => hsep (by simp [h, hin])
  rw [weight_of_no_slash hsep, weight_of_no_slash hsep', h, List.length_append]
  simp

theorem tight_of_last (hsep : '/' ∉ last) (hlast : isBlank last = false) :
    (ofChars (front ++ '/' :: last)).Tight := by
  intro init c h
  rw [chars_ofChars] at h
  obtain hnil | ⟨last, d, rfl⟩ := last.eq_nil_or_concat'
  · rw [hnil] at hlast
    exact absurd hlast (by decide)
  · have hsep' : '/' ∉ last := fun hin => hsep (by simp [hin])
    have hinit : init = front ++ '/' :: last := by
      rw [← List.cons_append, ← List.append_assoc] at h
      exact (List.append_inj' h rfl).1.symm
    have hless := weightBehind_lt last d hlast
    rw [hinit, weight_slash hsep, weight_slash hsep']
    omega

/-- With its components given, a tight text is as short as any beginning of the same text. -/
theorem Tight.shortest (hq : q.Tight) {text cs : List Char} (htext : q.chars <+: text)
    (h : cs <+: text) (he : (ofChars cs).components = q.components) : q.chars <+: cs := by
  refine List.prefix_of_prefix_length_le htext h ?_
  by_contra hlt
  have hshort : cs <+: q.chars := List.prefix_of_prefix_length_le h htext (by omega)
  obtain hnil | ⟨init, c, hcut⟩ := q.chars.eq_nil_or_concat'
  · simp [hnil] at hlt
  · have hinit : cs <+: init := by
      rw [hcut] at hshort
      rcases List.prefix_concat_iff.mp hshort with heq | hinit
      · rw [heq, ← hcut] at hlt
        exact absurd le_rfl hlt
      · exact hinit
    have hless := (weight_mono hinit).trans_lt (hq init c hcut)
    rw [weight, he, ← weight] at hless
    exact absurd hless (lt_irrefl _)

end Text

section Beginning

variable {first : Segment} {reversed : List Segment} {p q : Path}

theorem tight_root : (ofChars ['/']).Tight := by
  intro init c h
  have hnil : init = [] := by
    cases init with
    | nil => rfl
    | cons d init => simp at h
  subst hnil
  exact Nat.zero_lt_one

theorem tight_upTo (hsep : ∀ s ∈ first :: reversed, '/' ∉ s) : (upTo first reversed).Tight := by
  have hfirst := hsep first List.mem_cons_self
  obtain hnil | ⟨front, last, hcut⟩ := (reversed.dropWhile isBlank).reverse.eq_nil_or_concat'
  · rw [upTo, hnil]
    by_cases he : first = []
    · simp only [he, if_true]
      exact tight_root
    · simp only [he, if_false]
      exact tight_of_no_slash hfirst
  · have hdrop : reversed.dropWhile isBlank = last :: front.reverse := by
      simpa using congrArg List.reverse hcut
    have hlast : isBlank last = false := (cut_of_dropWhile hdrop).1
    have hmem : last ∈ reversed := (List.dropWhile_suffix isBlank).mem (by simp [hdrop])
    have hjoin : ['/'].intercalate (first :: (front ++ [last])) =
        ['/'].intercalate (first :: front) ++ '/' :: last := by
      have hh : ['/'].intercalate ((first :: front) ++ [last]) =
          ['/'].intercalate (first :: front) ++ ['/'] ++ ['/'].intercalate [last] :=
        intercalate_append (List.cons_ne_nil first front) (List.cons_ne_nil last [])
      simpa using hh
    have hupTo : upTo first reversed = ofChars (['/'].intercalate (first :: (front ++ [last]))) := by
      rw [upTo, hcut]
      cases front <;> rfl
    rw [hupTo, hjoin]
    exact tight_of_last (hsep last (List.mem_cons_of_mem first hmem)) hlast

theorem upTo_starts {more : List Segment} (hmore : more ≠ []) :
    (upTo first reversed).chars <+: ['/'].intercalate (first :: (reversed.reverse ++ more)) := by
  have hcut : reversed.reverse =
      (reversed.dropWhile isBlank).reverse ++ (reversed.takeWhile isBlank).reverse := by
    rw [← List.reverse_append, List.takeWhile_append_dropWhile]
  cases hrest : (reversed.dropWhile isBlank).reverse with
  | nil =>
    rw [upTo, hrest]
    by_cases he : first = []
    · obtain ⟨next, rest, hnext⟩ : ∃ next rest, reversed.reverse ++ more = next :: rest :=
        List.exists_cons_of_ne_nil (by simp [hmore])
      simp [he, hnext]
    · simpa [he] using intercalate_starts ['/'] [first] (reversed.reverse ++ more)
  | cons next rest =>
    rw [upTo, hrest, hcut, hrest, List.append_assoc]
    exact (chars_ofChars _).symm ▸ intercalate_starts ['/'] (first :: next :: rest) _

theorem tight_of_mem_aboveSegments (hsep : ∀ s ∈ first :: reversed, '/' ∉ s)
    (hq : q ∈ aboveSegments first reversed) (more : List Segment) :
    q.Tight ∧ q.chars <+: ['/'].intercalate (first :: (reversed.reverse ++ more)) := by
  induction reversed generalizing more with
  | nil =>
    by_cases he : first = []
    · simp [aboveSegments, he] at hq
    · simp only [aboveSegments, he, if_false, List.mem_singleton] at hq
      subst hq
      exact ⟨tight_of_no_slash List.not_mem_nil, List.nil_prefix⟩
  | cons s reversed ih =>
    have hsep' : ∀ t ∈ first :: reversed, '/' ∉ t := slash_notMem_of_cons hsep
    rw [List.reverse_cons, List.append_assoc, List.singleton_append]
    by_cases hs : isBlank s = true
    · rw [aboveSegments, if_pos hs] at hq
      exact ih hsep' hq (s :: more)
    · rw [aboveSegments, if_neg hs] at hq
      rcases List.mem_cons.mp hq with rfl | hq
      · exact ⟨tight_upTo hsep', upTo_starts (List.cons_ne_nil s more)⟩
      · exact ih hsep' hq (s :: more)

/-- Each path above is written as the shortest beginning with its components. -/
theorem shortest_of_mem_above (hq : q ∈ p.above) : q.chars <+: p.chars ∧
    ∀ cs, cs <+: p.chars → (ofChars cs).components = q.components → q.chars <+: cs := by
  obtain ⟨first, rest, hseg⟩ := p.exists_segments
  have hchars : ['/'].intercalate (first :: rest) = p.chars := by
    rw [← hseg, segments, List.intercalate_splitOn]
  rw [above, hseg] at hq
  have hh := tight_of_mem_aboveSegments (slash_notMem_of_segments hseg) hq []
  rw [List.reverse_reverse, List.append_nil, hchars] at hh
  exact ⟨hh.2, fun cs h he => hh.1.shortest hh.2 h he⟩

end Beginning

section Top

variable {p q : Path}

theorem chars_ne_nil_of_components {c : Component} {cs : List Component}
    (h : p.components = c :: cs) : p.chars ≠ [] := by
  intro hnil
  have hp : p.components = [] := by rw [components, segments, isAbsolute, hnil]; rfl
  rw [hp] at h
  exact absurd h (List.cons_ne_nil c cs).symm

theorem eq_empty_of_components (h : p.components = []) : p = ⟨""⟩ := by
  by_cases hne : p.chars = []
  · exact eq_of_chars hne
  · obtain ⟨first, rest, hseg⟩ := p.exists_segments
    have hcomponents := components_eq_opening hne hseg
    rw [h, opening] at hcomponents
    by_cases hfirst : first = []
    · simp [hfirst] at hcomponents
    · simp [hfirst] at hcomponents

theorem exists_components_of_isAbsolute (h : p.isAbsolute = true) :
    ∃ rest, p.components = .root :: rest := by
  obtain ⟨first, rest, hseg⟩ := p.exists_segments
  refine ⟨named rest, ?_⟩
  rw [components_of_segments hseg, if_pos h, List.singleton_append]

theorem components_getLast_ancestors (p : Path) : ∃ top, p.ancestors.getLast? = some top ∧
    top.components = if p.isAbsolute then [.root] else [] := by
  have hall := congrArg List.getLast? (components_ancestors p)
  have htop : ((p.components.inits.drop (if p.isAbsolute then 1 else 0)).reverse).getLast? =
      some (if p.isAbsolute then [.root] else []) := by
    rw [List.getLast?_reverse]
    by_cases habs : p.isAbsolute = true
    · obtain ⟨rest, hrest⟩ := exists_components_of_isAbsolute habs
      rw [hrest, if_pos habs, if_pos habs]
      cases rest <;> rfl
    · cases hcomponents : p.components <;> simp [habs]
  rw [htop, List.getLast?_map] at hall
  obtain ⟨top, htop, hcomponents⟩ := Option.map_eq_some_iff.mp hall
  exact ⟨top, htop, hcomponents⟩

/-- What going up from a path comes through: the path as it is written, and then beginnings of its
text with one component less each time, none longer than its components ask for, down to the root
of an absolute path and to the empty path from a relative one. -/
structure Ascends (root : Path) (dirs : List Path) : Prop where
  starts : dirs.head? = some root
  descending : dirs.map components =
    (root.components.inits.drop (if root.isAbsolute then 1 else 0)).reverse
  shortest : ∀ q ∈ dirs.tail, q.chars <+: root.chars ∧
    ∀ cs, cs <+: root.chars → (ofChars cs).components = q.components → q.chars <+: cs
  relative_ends : root.isAbsolute = false → dirs.getLast? = some ⟨""⟩
  absolute_ends : root.isAbsolute = true → ∃ top, dirs.getLast? = some top ∧
    top.same ⟨"/"⟩ = true ∧ (top = root ∨ top = ⟨"/"⟩)

theorem ascends_ancestors (root : Path) : root.Ascends root.ancestors := by
  obtain ⟨top, htop, hcomponents⟩ := components_getLast_ancestors root
  refine ⟨rfl, components_ancestors root, fun q hq => shortest_of_mem_above hq, fun hrel => ?_,
    fun habs => ⟨top, htop, ?_, ?_⟩⟩
  · simp only [hrel, Bool.false_eq_true, if_false] at hcomponents
    rw [htop, eq_empty_of_components hcomponents]
  · rw [same, hcomponents, if_pos habs]
    rfl
  · rw [if_pos habs] at hcomponents
    rcases List.mem_cons.mp (List.mem_of_getLast? htop) with hroot | habove
    · exact .inl hroot
    · -- the slash in front is a beginning with the same components
      obtain ⟨rest, hrest⟩ : ∃ rest, root.chars = '/' :: rest := by
        cases hchars : root.chars with
        | nil => simp [isAbsolute, hchars] at habs
        | cons c rest =>
          have hc : c = '/' := by simpa [isAbsolute, hchars] using habs
          exact ⟨rest, by rw [hc]⟩
      have hslash : ['/'] <+: root.chars := hrest ▸ ⟨rest, rfl⟩
      have hshort := (shortest_of_mem_above habove).2 ['/'] hslash (hcomponents ▸ rfl)
      have hne := chars_ne_nil_of_components hcomponents
      have hchars : top.chars = ['/'] := by
        rcases List.prefix_concat_iff.mp (show top.chars <+: [] ++ ['/'] from hshort) with he | he
        · exact he
        · exact absurd (List.prefix_nil.mp he) hne
      exact .inr (eq_of_chars hchars)

example : (⟨"./a//b/"⟩ : Path).ancestors = [⟨"./a//b/"⟩, ⟨"./a"⟩, ⟨"."⟩, ⟨""⟩] := by
  decide +kernel

end Top

end Path

end Prebuilt
