import Prebuilt.Manifest
import Prebuilt.Proofs.JsonGrammar

/-! What a manifest says, apart from how it is written: the members of an object that something is asked
of, each once at most, or a list of two values. -/

namespace Prebuilt

namespace Json

/-- What a text or nothing says; other values say neither. -/
def asEntry : Json → Option (Option String)
  | .string s => some (some s)
  | .null => some none
  | _ => none

/-- A text, or nothing, as a value. -/
def ofEntry : Option String → Json
  | some s => .string s
  | none => .null

theorem asEntry_eq_some_iff {j : Json} {entry : Option String} :
    j.asEntry = some entry ↔ j = ofEntry entry := by
  cases j <;> cases entry <;> simp [asEntry, ofEntry]

theorem asEntry_isSome_iff {j : Json} : j.asEntry.isSome = true ↔ ∃ entry, j = ofEntry entry := by
  simp only [Option.isSome_iff_exists, asEntry_eq_some_iff]

end Json

namespace Manifest

open Json

def Known (key : String) : Prop := key = "name" ∨ key = "main"

instance : DecidablePred Known := fun _ => inferInstanceAs (Decidable (_ ∨ _))

namespace Entries

def at? (e : Entries) (key : String) : Option (Option String) :=
  if key = "name" then e.name else e.main

def put (e : Entries) (key : String) (entry : Option String) : Entries :=
  if key = "name" then { e with name := some entry } else { e with main := some entry }

/-- The entries after the given members, if these can be read. -/
def after? (e : Entries) : List (String × Json) → Option Entries
  | [] => some e
  | (key, j) :: ms =>
    if Known key then
      match e.at? key, j.asEntry with
      | none, some entry => (e.put key entry).after? ms
      | _, _ => none
    else e.after? ms

end Entries

/-- What an object is read as, if it can be read. -/
def ofMembers? (ms : List (String × Json)) : Option Manifest :=
  ((⟨none, none⟩ : Entries).after? ms).map Entries.finish

def ofItems? : List Json → Option Manifest
  | [name, main] => name.asEntry.bind fun name => main.asEntry.map fun main => ⟨name, main⟩
  | _ => none

theorem ofItems?_cons_cons (a b : Json) (js : List Json) :
    ofItems? (a :: b :: js) = a.asEntry.bind fun name =>
      if js = [] then b.asEntry.map fun main => ⟨name, main⟩ else none := by
  cases js with
  | nil => rfl
  | cons => cases a.asEntry <;> rfl

theorem ofItems_pair (name main : Option String) :
    ofItems? [ofEntry name, ofEntry main] = some ⟨name, main⟩ := by
  cases name <;> cases main <;> rfl

theorem ofItems_of_length {js : List Json} (h : js.length ≠ 2) : ofItems? js = none := by
  match js with
  | [] => rfl
  | [_] => rfl
  | [_, _] => exact absurd rfl h
  | _ :: _ :: _ :: _ => rfl

section Members

variable {ms ms' : List (String × Json)} {e e' : Entries} {key : String}

/-- No known member occurs twice, and each is a text or nothing. -/
structure Readable (ms : List (String × Json)) : Prop where
  once : ∀ key, Known key → (ms.map Prod.fst).count key ≤ 1
  entry : ∀ key j, Known key → (key, j) ∈ ms → ∃ entry, j = ofEntry entry

theorem at?_put_self (entry : Option String) : (e.put key entry).at? key = some entry := by
  by_cases h : key = "name" <;> simp [Entries.at?, Entries.put, h]

theorem at?_put_of_ne {key' : String} (hknown : Known key) (hknown' : Known key') (h : key' ≠ key)
    (entry : Option String) : (e.put key entry).at? key' = e.at? key' := by
  rcases hknown with rfl | rfl <;> rcases hknown' with rfl | rfl
  · exact absurd rfl h
  · rfl
  · rfl
  · exact absurd rfl h

/-- An entry read from some members stems from one of them, or was there before. -/
theorem at?_after (h : e.after? ms = some e') (hknown : Known key) (entry : Option String) :
    e'.at? key = some entry ↔
      e.at? key = some entry ∨ ∃ j, (key, j) ∈ ms ∧ j.asEntry = some entry := by
  induction ms generalizing e with
  | nil =>
    obtain rfl := Option.some.inj h
    simp
  | cons m ms ih =>
    obtain ⟨key', j⟩ := m
    rw [Entries.after?] at h
    split at h
    · next hknown' =>
      split at h
      · next entry' hnone hj =>
        rw [ih h]
        by_cases hkey : key = key'
        · subst hkey
          rw [at?_put_self, hnone]
          simp [hj, or_and_right, exists_or]
        · rw [at?_put_of_ne hknown' hknown hkey]
          simp [hkey]
      · cases h
    · next hother =>
      have hkey : key ≠ key' := by
        rintro rfl
        exact hother hknown
      rw [ih h]
      simp [hkey]

/-- What is still to be read of a key's members, given whether it has been read before. -/
def Due (key : String) (e : Entries) (ms : List (String × Json)) : Prop :=
  (ms.map Prod.fst).count key + (if (e.at? key).isSome then 1 else 0) ≤ 1 ∧
    ∀ j, (key, j) ∈ ms → j.asEntry.isSome

theorem due_cons_of_ne {key' : String} (h : key ≠ key') (j : Json) :
    Due key e ((key', j) :: ms) ↔ Due key e ms := by
  simp [Due, h, List.count_cons_of_ne (Ne.symm h)]

theorem due_cons_self (j : Json) : Due key e ((key, j) :: ms) ↔
    ∃ entry, e.at? key = none ∧ j.asEntry = some entry ∧ Due key (e.put key entry) ms := by
  constructor
  · rintro ⟨hcount, hentry⟩
    obtain ⟨entry, hj⟩ := Option.isSome_iff_exists.mp (hentry j List.mem_cons_self)
    rw [List.map_cons, List.count_cons_self] at hcount
    cases hgiven : e.at? key with
    | some x => simp [hgiven] at hcount
    | none =>
      refine ⟨entry, rfl, hj, ?_, fun j' hj' => hentry j' (List.mem_cons_of_mem _ hj')⟩
      simpa [hgiven, at?_put_self] using hcount
  · rintro ⟨entry, hgiven, hj, hcount, hentry⟩
    refine ⟨?_, fun j' hj' => ?_⟩
    · simpa [hgiven, at?_put_self] using hcount
    · rcases List.mem_cons.mp hj' with he | hj'
      · obtain rfl : j' = j := congrArg Prod.snd he
        rw [hj]
        rfl
      · exact hentry j' hj'

theorem due_put_of_ne {key' : String} (hknown : Known key') (hknown' : Known key) (h : key ≠ key')
    (entry : Option String) : Due key (e.put key' entry) ms ↔ Due key e ms := by
  rw [Due, at?_put_of_ne hknown hknown' h]
  exact Iff.rfl

/-- Members can be read if and only if those of each known key can. -/
theorem isSome_after_iff : (e.after? ms).isSome = true ↔ ∀ key, Known key → Due key e ms := by
  -- A member changes what is due of its own key, and of no other.
  induction ms generalizing e with
  | nil =>
    have hdue (key : String) : Due key e [] := by
      refine ⟨?_, by simp⟩
      split <;> simp
    simp [Entries.after?, hdue]
  | cons m ms ih =>
    obtain ⟨key', j⟩ := m
    rw [Entries.after?]
    split
    · next hknown' =>
      split
      · next entry hnone hj =>
        rw [ih]
        refine forall_congr' fun key => imp_congr_right fun hknown => ?_
        by_cases hkey : key = key'
        · subst hkey
          rw [due_cons_self]
          refine ⟨fun hdue => ⟨entry, hnone, hj, hdue⟩, ?_⟩
          rintro ⟨entry', -, hj', hdue⟩
          obtain rfl : entry = entry' := Option.some.inj (hj.symm.trans hj')
          exact hdue
        · rw [due_put_of_ne hknown' hknown hkey, due_cons_of_ne hkey]
      · next hclash =>
        refine ⟨nofun, fun hdue => ?_⟩
        obtain ⟨entry, hnone, hj, -⟩ := (due_cons_self j).mp (hdue key' hknown')
        exact absurd hj (hclash entry hnone)
    · next hother =>
      rw [ih]
      refine forall_congr' fun key => imp_congr_right fun hknown => ?_
      rw [due_cons_of_ne]
      rintro rfl
      exact hother hknown

theorem readable_iff : ((⟨none, none⟩ : Entries).after? ms).isSome = true ↔ Readable ms := by
  have hnone {key : String} (hknown : Known key) : (⟨none, none⟩ : Entries).at? key = none := by
    rcases hknown with rfl | rfl <;> rfl
  rw [isSome_after_iff]
  constructor
  · intro hdue
    refine ⟨fun key hknown => ?_, fun key j hknown hj =>
      asEntry_isSome_iff.mp ((hdue key hknown).2 j hj)⟩
    simpa [hnone hknown] using (hdue key hknown).1
  · intro hr key hknown
    refine ⟨?_, fun j hj => asEntry_isSome_iff.mpr (hr.entry key j hknown hj)⟩
    simpa [hnone hknown] using hr.once key hknown

theorem isSome_ofMembers_iff : (ofMembers? ms).isSome = true ↔ Readable ms := by
  rw [ofMembers?, Option.isSome_map, readable_iff]

theorem readable_of_ofMembers {m : Manifest} (h : ofMembers? ms = some m) : Readable ms :=
  isSome_ofMembers_iff.mp (Option.isSome_of_eq_some h)

theorem ofMembers_eq_some {m : Manifest} (h : ofMembers? ms = some m) (s : String) :
    (m.name = some s ↔ ("name", Json.string s) ∈ ms) ∧
      (m.main = some s ↔ ("main", Json.string s) ∈ ms) := by
  obtain ⟨e, he, rfl⟩ := Option.map_eq_some_iff.mp h
  have hstring (key : String) :
      (∃ j, (key, j) ∈ ms ∧ j.asEntry = some (some s)) ↔ (key, Json.string s) ∈ ms := by
    simp [asEntry_eq_some_iff, ofEntry]
  have hname := at?_after he (.inl rfl : Known "name") (some s)
  have hmain := at?_after he (.inr rfl : Known "main") (some s)
  rw [hstring] at hname hmain
  refine ⟨Option.join_eq_some_iff.trans (hname.trans ?_),
    Option.join_eq_some_iff.trans (hmain.trans ?_)⟩
  · exact or_iff_right nofun
  · exact or_iff_right nofun

theorem ofMembers_eq_none (h : ∃ key, Known key ∧ (2 ≤ (ms.map Prod.fst).count key ∨
    ∃ j, (key, j) ∈ ms ∧ ∀ entry, j ≠ ofEntry entry)) : ofMembers? ms = none := by
  cases hm : ofMembers? ms with
  | none => rfl
  | some m =>
    have hr := readable_of_ofMembers hm
    obtain ⟨key, hknown, htwice | ⟨j, hj, hother⟩⟩ := h
    · have := hr.once key hknown
      omega
    · obtain ⟨entry, he⟩ := hr.entry key j hknown hj
      exact absurd he (hother entry)

/-- The members that something is asked of. -/
def asked (ms : List (String × Json)) : List (String × Json) := ms.filter fun m => Known m.1

theorem mem_asked_iff {j : Json} (hknown : Known key) : (key, j) ∈ asked ms ↔ (key, j) ∈ ms := by
  simp [asked, hknown]

theorem count_asked (hknown : Known key) :
    ((asked ms).map Prod.fst).count key = (ms.map Prod.fst).count key := by
  rw [asked, List.count_eq_countP, List.countP_map, List.countP_filter, List.count_eq_countP,
    List.countP_map]
  refine List.countP_congr fun m _ => ?_
  simp only [Function.comp_apply, Bool.and_eq_true, beq_iff_eq, decide_eq_true_eq,
    and_iff_left_iff_imp]
  rintro rfl
  exact hknown

theorem Readable.of_perm (h : (asked ms).Perm (asked ms')) (hr : Readable ms) : Readable ms' := by
  refine ⟨fun key hknown => ?_, fun key j hknown hj => ?_⟩
  · rw [← count_asked hknown, ← (h.map Prod.fst).count_eq, count_asked hknown]
    exact hr.once key hknown
  · refine hr.entry key j hknown ?_
    rwa [← mem_asked_iff hknown, h.mem_iff, mem_asked_iff hknown]

theorem ofMembers_of_perm (h : (asked ms).Perm (asked ms')) {m : Manifest}
    (hm : ofMembers? ms = some m) : ofMembers? ms' = some m := by
  have hmem {key : String} (hknown : Known key) (s : String) :
      (key, Json.string s) ∈ ms' ↔ (key, Json.string s) ∈ ms := by
    rw [← mem_asked_iff hknown, ← h.mem_iff, mem_asked_iff hknown]
  have hr' : Readable ms' := (readable_of_ofMembers hm).of_perm h
  obtain ⟨m', hm'⟩ := Option.isSome_iff_exists.mp (isSome_ofMembers_iff.mpr hr')
  obtain ⟨name, main⟩ := m
  obtain ⟨name', main'⟩ := m'
  have hname : name' = name := Option.ext fun s => by
    rw [(ofMembers_eq_some hm s).1, (ofMembers_eq_some hm' s).1, hmem (.inl rfl)]
  have hmain : main' = main := Option.ext fun s => by
    rw [(ofMembers_eq_some hm s).2, (ofMembers_eq_some hm' s).2, hmem (.inr rfl)]
  rw [hm', hname, hmain]

/-- Members that nothing is asked of do not matter, nor does the order of the others. -/
theorem ofMembers_congr (h : (asked ms).Perm (asked ms')) : ofMembers? ms = ofMembers? ms' :=
  Option.ext fun _ => ⟨ofMembers_of_perm h, ofMembers_of_perm h.symm⟩

end Members

end Manifest

end Prebuilt
