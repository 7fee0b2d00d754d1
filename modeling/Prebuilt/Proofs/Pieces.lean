import Mathlib.Data.List.Basic

/-! Lists cut at a separator and lists put together around one. Cutting is local: what stands on
either side of a place decides the pieces there. -/

namespace Prebuilt

section Join

variable {α : Type}

theorem mem_intercalate_iff {x sep : α} (hx : x ≠ sep) {pieces : List (List α)} :
    x ∈ [sep].intercalate pieces ↔ ∃ piece ∈ pieces, x ∈ piece := by
  induction pieces with
  | nil => simp
  | cons piece pieces ih =>
    cases pieces with
    | nil => simp
    | cons next pieces => simp [ih, hx]

theorem intercalate_append {sep : List α} {l l' : List (List α)} (hl : l ≠ []) (hl' : l' ≠ []) :
    sep.intercalate (l ++ l') = sep.intercalate l ++ sep ++ sep.intercalate l' := by
  induction l with
  | nil => exact absurd rfl hl
  | cons piece l ih =>
    cases l with
    | nil =>
      rw [List.singleton_append, List.intercalate_cons_of_ne_nil hl', List.intercalate_singleton]
    | cons next l =>
      have hh := ih (List.cons_ne_nil next l)
      simp only [List.cons_append, List.intercalate_cons_cons, List.append_assoc] at hh ⊢
      rw [hh]

theorem intercalate_starts (sep : List α) (l l' : List (List α)) :
    sep.intercalate l <+: sep.intercalate (l ++ l') := by
  by_cases hl : l = []
  · rw [hl]
    exact List.nil_prefix
  · by_cases hl' : l' = []
    · simp [hl']
    · rw [intercalate_append hl hl', List.append_assoc]
      exact List.prefix_append _ _

end Join

section Cut

variable {α : Type}

/-- Where a run ends, the first element that stops it begins what is left. -/
theorem cut_of_dropWhile {p : α → Bool} {l rest : List α} {x : α} (h : l.dropWhile p = x :: rest) :
    p x = false ∧ l = l.takeWhile p ++ x :: rest := by
  have hhead := List.head?_dropWhile_not p l
  have hcut := l.takeWhile_append_dropWhile (p := p)
  rw [h] at hhead hcut
  exact ⟨by simpa using hhead, hcut.symm⟩

variable [BEq α]

theorem exists_first_piece (sep : α) (l : List α) : ∃ first rest, l.splitOn sep = first :: rest :=
  List.exists_cons_of_ne_nil (List.splitOn_ne_nil sep l)

theorem exists_last_piece (sep : α) (l : List α) : ∃ front last, l.splitOn sep = front ++ [last] :=
  (List.eq_nil_or_concat' _).resolve_left (List.splitOn_ne_nil sep l)

variable [LawfulBEq α] {sep : α}

theorem splitOn_cons_self (sep : α) (l : List α) : (sep :: l).splitOn sep = [] :: l.splitOn sep :=
  List.splitOn_append_cons_self_of_not_mem List.not_mem_nil l

theorem splitOn_cons_of_ne {x : α} (h : x ≠ sep) {l first : List α} {rest : List (List α)}
    (hl : l.splitOn sep = first :: rest) : (x :: l).splitOn sep = (x :: first) :: rest := by
  rw [List.splitOn_cons_eq_if_modifyHead, if_neg (by simpa using h), hl, List.modifyHead_cons]

theorem notMem_of_mem_splitOn {l piece : List α} (h : piece ∈ l.splitOn sep) : sep ∉ piece := by
  induction l generalizing piece with
  | nil =>
    rw [List.splitOn_nil, List.mem_singleton] at h
    exact h ▸ List.not_mem_nil
  | cons x l ih =>
    by_cases hx : x = sep
    · rw [hx, splitOn_cons_self] at h
      rcases List.mem_cons.mp h with rfl | h
      · exact List.not_mem_nil
      · exact ih h
    · obtain ⟨first, rest, hl⟩ := exists_first_piece sep l
      rw [splitOn_cons_of_ne hx hl] at h
      rcases List.mem_cons.mp h with rfl | h
      · exact List.not_mem_cons_of_ne_of_not_mem (Ne.symm hx) (ih (hl ▸ List.mem_cons_self))
      · exact ih (hl ▸ List.mem_cons_of_mem first h)

/-- Where two lists meet, the last piece of one and the first of the other become one. -/
theorem splitOn_append {before after last first : List α} {front rest : List (List α)}
    (hbefore : before.splitOn sep = front ++ [last]) (hafter : after.splitOn sep = first :: rest) :
    (before ++ after).splitOn sep = front ++ (last ++ first) :: rest := by
  induction before generalizing front last with
  | nil =>
    obtain ⟨rfl, rfl⟩ : front = [] ∧ last = [] := by
      cases front with
      | nil => simpa [eq_comm] using hbefore
      | cons f front => simp at hbefore
    exact hafter
  | cons x l ih =>
    by_cases hx : x = sep
    · rw [hx, splitOn_cons_self] at hbefore
      cases front with
      | nil => exact absurd (List.cons.inj hbefore).2 (List.splitOn_ne_nil sep l)
      | cons piece front =>
        obtain ⟨rfl, hrest⟩ := List.cons.inj hbefore
        rw [hx, List.cons_append, splitOn_cons_self, ih hrest, List.cons_append]
    · obtain ⟨piece, pieces, hl⟩ := exists_first_piece sep l
      rw [splitOn_cons_of_ne hx hl] at hbefore
      cases front with
      | nil =>
        obtain ⟨rfl, rfl⟩ := List.cons.inj hbefore
        exact splitOn_cons_of_ne hx (ih (show l.splitOn sep = [] ++ [piece] from hl))
      | cons f front =>
        obtain ⟨rfl, rfl⟩ := List.cons.inj hbefore
        exact splitOn_cons_of_ne hx (ih (show l.splitOn sep = (piece :: front) ++ [last] from hl))

/-- Each piece behind the first one stands behind a separator of its own. -/
theorem splitOn_lines {first : List α} {lines : List (List α)} (hfirst : sep ∉ first)
    (hlines : ∀ line ∈ lines, sep ∉ line) :
    (first ++ lines.flatMap (sep :: ·)).splitOn sep = first :: lines := by
  induction lines generalizing first with
  | nil => simpa using List.splitOn_eq_singleton hfirst
  | cons line lines ih =>
    rw [List.forall_mem_cons] at hlines
    rw [List.flatMap_cons, List.cons_append, List.splitOn_append_cons_self_of_not_mem hfirst,
      ih hlines.1 hlines.2]

theorem splitOn_injective (sep : α) : Function.Injective (List.splitOn sep) := by
  have hcut : Function.LeftInverse (List.intercalate [sep]) (List.splitOn sep) :=
    fun _ => List.intercalate_splitOn sep
  exact hcut.injective

theorem mem_iff_of_splitOn {x : α} (hx : x ≠ sep) {l : List α} :
    x ∈ l ↔ ∃ piece ∈ l.splitOn sep, x ∈ piece := by
  rw [← mem_intercalate_iff hx, List.intercalate_splitOn]

end Cut

end Prebuilt
