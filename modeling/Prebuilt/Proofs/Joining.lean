import Prebuilt.Path
import Prebuilt.Proofs.Pieces

/-! Components of joined paths. What is joined on the right adds its own components at the end, and
what these are does not depend on how the left side is written. -/

namespace Prebuilt

namespace Path

@[simp] theorem chars_ofChars (cs : List Char) : (ofChars cs).chars = cs := by
  simp [chars, ofChars]

theorem segments_ofChars {piece : Segment} (hsep : '/' ∉ piece) :
    (ofChars piece).segments = [piece] := by
  rw [segments, chars_ofChars, List.splitOn_eq_singleton hsep]

theorem isAbsolute_ofChars {piece : Segment} (hsep : '/' ∉ piece) :
    (ofChars piece).isAbsolute = false := by
  cases piece with
  | nil => rfl
  | cons c cs =>
    have hc : c ≠ '/' := fun hc => hsep (by simp [hc])
    simp [isAbsolute, hc]

/-- The segments that count as components anywhere but at the start of a path. -/
def named (segments : List Segment) : List Component :=
  (segments.filter fun s => !isBlank s).map componentOf

theorem named_append (l l' : List Segment) : named (l ++ l') = named l ++ named l' := by
  simp [named]

@[simp] theorem named_empty : named [[]] = [] := rfl

theorem named_cons {s : Segment} (h : isBlank s = false) (l : List Segment) :
    named (s :: l) = componentOf s :: named l := by
  simp [named, h]

theorem named_singleton {s : Segment} (h : isBlank s = false) : named [s] = [componentOf s] :=
  named_cons h []

theorem componentOf_injective : Function.Injective componentOf := by
  intro s s' h
  unfold componentOf at h
  by_cases hup : s = ['.', '.'] <;> by_cases hup' : s' = ['.', '.'] <;>
    by_cases hhere : s = ['.'] <;> by_cases hhere' : s' = ['.'] <;> simp_all

theorem components_of_segments {p : Path} {first : Segment} {rest : List Segment}
    (h : p.segments = first :: rest) :
    p.components = (if p.isAbsolute then [.root] else if first = [] then [] else
      [componentOf first]) ++ named rest := by
  simp only [components, h, named]
  split
  · rfl
  · split <;> rfl

theorem isAbsolute_append {p q : Path} {more : List Char} (hne : p.chars ≠ [])
    (h : q.chars = p.chars ++ more) : q.isAbsolute = p.isAbsolute := by
  obtain ⟨c, cs, hc⟩ := List.exists_cons_of_ne_nil hne
  simp [isAbsolute, h, hc]

theorem join_empty {p q : Path} (hp : p.chars = []) : p.join q = q := by
  have htext : p.text = "" := String.toList_eq_nil_iff.mp hp
  unfold join
  split
  · rfl
  · simp [hp, htext]

/-- Joining puts one slash between the two sides, whether the left one ends in a slash or not. -/
theorem chars_join {p q : Path} {init : List Char} {last : Char} (hp : p.chars = init ++ [last])
    (hq : q.isAbsolute = false) :
    (p.join q).chars =
      (if last = '/' then init ++ '/' :: q.chars else p.chars ++ '/' :: q.chars) := by
  by_cases hs : last = '/' <;> simp_all [join, chars]

theorem components_join {p q : Path} (hp : p.chars ≠ []) (hq : q.isAbsolute = false) :
    (p.join q).components = p.components ++ named q.segments := by
  obtain ⟨init, last, hl⟩ := p.chars.eq_nil_or_concat'.resolve_left hp
  have hjoin := chars_join hl hq
  by_cases hs : last = '/'
  · rw [if_pos hs] at hjoin
    obtain ⟨first, rest, hcut⟩ := exists_first_piece '/' init
    have hleft : p.segments = first :: (rest ++ [[]]) := by
      rw [segments, hl, hs, List.splitOn_append_cons_self, hcut]
      rfl
    have hboth : (p.join q).segments = first :: (rest ++ q.segments) := by
      rw [segments, hjoin, List.splitOn_append_cons_self, hcut]
      rfl
    have happend : (p.join q).chars = p.chars ++ q.chars := by simp [hjoin, hl, hs]
    rw [components_of_segments hleft, components_of_segments hboth, isAbsolute_append hp happend,
      named_append, named_append, named_empty, List.append_nil, List.append_assoc]
  · rw [if_neg hs] at hjoin
    obtain ⟨first, rest, hcut⟩ := exists_first_piece '/' p.chars
    have hleft : p.segments = first :: rest := hcut
    have hboth : (p.join q).segments = first :: (rest ++ q.segments) := by
      rw [segments, hjoin, List.splitOn_append_cons_self, hcut]
      rfl
    rw [components_of_segments hleft, components_of_segments hboth, isAbsolute_append hp hjoin,
      named_append, List.append_assoc]

/-- A name adds itself, whatever it is joined to. -/
theorem components_join_name (p : Path) {piece : Segment} (hsep : '/' ∉ piece)
    (hne : isBlank piece = false) :
    (p.join (ofChars piece)).components = p.components ++ [componentOf piece] := by
  have hcut := segments_ofChars hsep
  have hrel := isAbsolute_ofChars hsep
  by_cases hp : p.chars = []
  · have hpiece : piece ≠ [] := fun he => by simp [he, isBlank] at hne
    have hcutp : p.segments = [[]] := by rw [segments, hp]; rfl
    have hrelp : p.isAbsolute = false := by rw [isAbsolute, hp]; rfl
    rw [join_empty hp, components_of_segments hcut, components_of_segments hcutp]
    simp [hrel, hrelp, hpiece, named]
  · rw [components_join hp hrel, hcut, named_singleton hne]

theorem components_join_names {pieces : List Segment} (hsep : ∀ piece ∈ pieces, '/' ∉ piece)
    (hne : ∀ piece ∈ pieces, isBlank piece = false) (dir : Path) :
    (pieces.foldl (fun at' piece => at'.join (ofChars piece)) dir).components =
      dir.components ++ pieces.map componentOf := by
  induction pieces generalizing dir with
  | nil => simp
  | cons piece pieces ih =>
    have hjoin := components_join_name dir (hsep piece (by simp)) (hne piece (by simp))
    rw [List.foldl_cons, ih (fun p hp => hsep p (by simp [hp])) (fun p hp => hne p (by simp [hp])),
      hjoin, List.append_assoc, List.map_cons, List.singleton_append]

end Path

end Prebuilt
