import Prebuilt.NativeHost
import Prebuilt.Proofs.JsonSkipping
import Prebuilt.Proofs.ManifestMembers

/-! Reading the manifest of a package. Whatever the layout of the text, the name and the artifact are
what the object's members say, and nothing else in the object matters. -/

namespace Prebuilt

namespace Json

theorem asEntry_eq_none {j : Json} (h : j.asEntry = none) {b : UInt8} (hb : FirstByte j b) :
    b ≠ ascii 'n' ∧ b ≠ ascii '"' := by
  cases hb with
  | null => cases h
  | string => cases h
  | digit hd => exact ⟨hd.ne (by decide), hd.ne (by decide)⟩
  | _ => exact ⟨by decide, by decide⟩

end Json

namespace Manifest

open Json

/-! One value, one name. -/

theorem toOption_bind {ε α β : Type} (x : Except ε α) (f : α → Except ε β) :
    (x.bind f).toOption = x.toOption.bind fun a => (f a).toOption := by
  cases x <;> rfl

theorem ok_bind {ε α β : Type} (a : α) (f : α → Except ε β) : (Except.ok a).bind f = f a := rfl

theorem wrongType_fails {α : Type} (wanted : String) (bs : Bytes) :
    ∃ fault, (wrongType wanted bs : Except JsonFault α) = .error fault := by
  cases h : (wrongType wanted bs : Except JsonFault α) with
  | error fault => exact ⟨fault, rfl⟩
  | ok x =>
    unfold wrongType at h
    grind [faultAt, faultOn]

theorem readEntry_other {j : Json} {gap bs : Bytes} (hgap : Blank gap) (h : Spells (.value j) bs)
    (hj : j.asEntry = none) (rest : Bytes) :
    ∃ fault, readEntry (gap ++ bs ++ rest) = .error fault := by
  obtain ⟨b, tail, rfl, hb⟩ := first_of_value h
  obtain ⟨hn, hq⟩ := asEntry_eq_none hj hb
  rw [List.append_assoc, List.cons_append, readEntry, nextByte_gap hgap hb.not_blank]
  dsimp only
  rw [if_neg hn, if_neg hq]
  exact wrongType_fails _ _

theorem readEntry_entry {j : Json} {gap bs : Bytes} {entry : Option String} (hgap : Blank gap)
    (h : Spells (.value j) bs) (hj : j.asEntry = some entry) (rest : Bytes) :
    readEntry (gap ++ bs ++ rest) = .ok (entry, rest) := by
  cases h with
  | null =>
    obtain rfl := Option.some.inj hj
    have hword := scanWord_word ['u', 'l', 'l'] rest
    have hnull : word "null" = ascii 'n' :: ['u', 'l', 'l'].map ascii := rfl
    rw [hnull, List.append_assoc, List.cons_append, readEntry, nextByte_gap hgap (by decide)]
    dsimp only
    rw [if_pos rfl, hword]
    rfl
  | string hs =>
    obtain rfl := Option.some.inj hj
    cases hs with
    | quoted hbody =>
      have hscan := scanString_spelled hbody rest
      have hn : ascii '"' ≠ ascii 'n' := by decide
      rw [List.append_assoc, List.cons_append, List.append_assoc, readEntry,
        nextByte_gap hgap (by decide)]
      dsimp only
      rw [if_neg hn, if_pos rfl]
      exact congrArg (Except.map _) hscan
  | _ => cases hj

/-- What comes before the name of a member: a comma, unless it is the first one. -/
inductive Ahead : Bool → Bytes → Prop where
  | first {gap : Bytes} (hgap : Blank gap) : Ahead true gap
  | next {before after : Bytes} (hbefore : Blank before) (hafter : Blank after) :
      Ahead false (before ++ ascii ',' :: after)

theorem readMemberName_spelled {first : Bool} {ahead body : Bytes} {key : String}
    (ha : Ahead first ahead) (hkey : SpellsChars key.toList body) (rest : Bytes) :
    readMemberName first (ahead ++ ascii '"' :: (body ++ ascii '"' :: rest)) =
      .ok (some key, rest) := by
  have hscan := scanString_spelled hkey rest
  have hq : ascii '"' ≠ ascii '\x7d' := by decide
  have hc : ascii ',' ≠ ascii '\x7d' := by decide
  cases ha with
  | first hgap =>
    rw [readMemberName, nextByte_gap hgap (by decide)]
    dsimp only
    rw [if_neg hq, if_pos rfl, if_pos rfl, hscan]
    rfl
  | next hbefore hafter =>
    rw [List.append_assoc, List.cons_append, readMemberName, nextByte_gap hbefore (by decide)]
    dsimp only
    rw [if_neg hc, if_neg Bool.false_ne_true, if_pos rfl, nextByte_gap hafter (by decide)]
    dsimp only
    rw [if_pos rfl, hscan]
    rfl

theorem readMemberName_close (first : Bool) {gap : Bytes} (hgap : Blank gap) (rest : Bytes) :
    readMemberName first (gap ++ ascii '\x7d' :: rest) = .ok (none, rest) := by
  rw [readMemberName, nextByte_gap hgap (by decide)]
  dsimp only
  rw [if_pos rfl]

theorem toOption_readEntry {j : Json} {gap bs : Bytes} (hgap : Blank gap)
    (h : Spells (.value j) bs) (rest : Bytes) :
    (readEntry (gap ++ bs ++ rest)).toOption = j.asEntry.map fun entry => (entry, rest) := by
  cases hj : j.asEntry with
  | none =>
    obtain ⟨fault, hfault⟩ := readEntry_other hgap h hj rest
    rw [hfault]
    rfl
  | some entry =>
    rw [readEntry_entry hgap h hj rest]
    rfl

/-! The members in turn. -/

theorem given_iff (e : Entries) (key : String) :
    ((key = "name" && e.name.isSome) || (key = "main" && e.main.isSome)) = true ↔
      Known key ∧ (e.at? key).isSome = true := by
  by_cases hname : key = "name"
  · subst hname
    simp [Known, Entries.at?]
  · simp [Known, Entries.at?, hname]

theorem known_iff (key : String) : (key = "name" || key = "main") = true ↔ Known key := by
  simp [Known]

theorem readMembers_eq (first : Bool) (e : Entries) (bs : Bytes) :
    readMembers first e bs =
      match readMemberName first bs with
      | .error fault => .error fault
      | .ok (none, rest) => .ok (e.finish, rest)
      | .ok (some key, rest) =>
        if Known key ∧ (e.at? key).isSome = true then
          faultAt (.duplicateField key) (restAfterObject rest)
        else (skipColon rest).bind fun rest =>
          if Known key then
            (readEntry rest).bind fun (entry, rest) => readMembers false (e.put key entry) rest
          else (skipValue rest).bind fun rest => readMembers false e rest := by
  rw [readMembers.eq_def]
  split
  · next hname => rw [hname]
  · next hname => rw [hname]
  · next key rest hname =>
    rw [hname]
    simp only [given_iff, known_iff]
    split
    · rfl
    · split
      · next hcolon => rw [hcolon]; rfl
      · next afterColon hcolon =>
        rw [hcolon]
        dsimp only [Except.bind]
        split
        · split
          · next hentry => rw [hentry]
          · next hentry => rw [hentry]; rfl
        · split
          · next hvalue => rw [hvalue]
          · next hvalue => rw [hvalue]

/-- One member: a known one is kept, once and if it is a text or nothing; any other is passed over. -/
theorem toOption_readMember {first : Bool} {ahead bs rest : Bytes} {key : String} {j : Json}
    {ms : List (String × Json)} {result : Entries → Manifest × Bytes} (e : Entries)
    (ha : Ahead first ahead) (hm : SpellsMember key j bs) (hrest : Follows rest)
    (hothers : ∀ e, (readMembers false e rest).toOption = (e.after? ms).map result) :
    (readMembers first e (ahead ++ (bs ++ rest))).toOption =
      (e.after? ((key, j) :: ms)).map result := by
  cases hm with
  | @colon body before after bs hkey hbefore hafter h =>
    have hname := readMemberName_spelled ha hkey (before ++ ascii ':' :: (after ++ bs ++ rest))
    have hcolon := skipColon_gap hbefore (after ++ bs ++ rest)
    simp only [List.append_assoc, List.cons_append] at hname hcolon ⊢
    rw [Entries.after?, readMembers_eq, hname]
    dsimp only
    -- A key that comes again is refused before its value is looked at.
    by_cases hgiven : Known key ∧ (e.at? key).isSome = true
    · obtain ⟨hknown, hgiven⟩ := hgiven
      obtain ⟨entry, hentry⟩ := Option.isSome_iff_exists.mp hgiven
      rw [if_pos ⟨hknown, hgiven⟩, if_pos hknown, hentry]
      rfl
    · rw [if_neg hgiven, hcolon, ok_bind]
      by_cases hknown : Known key
      · have hnone : e.at? key = none := by
          rw [← Option.not_isSome_iff_eq_none]
          exact fun h => hgiven ⟨hknown, h⟩
        have hentry := toOption_readEntry hafter h rest
        rw [List.append_assoc] at hentry
        rw [if_pos hknown, if_pos hknown, hnone, toOption_bind, hentry]
        cases j.asEntry with
        | none => rfl
        | some entry => exact hothers _
      · have hvalue := skipValue_spelled h hafter hrest
        rw [List.append_assoc] at hvalue
        rw [if_neg hknown, if_neg hknown, hvalue, ok_bind]
        exact hothers e

theorem toOption_readMembers {ms : List (String × Json)} {bs : Bytes}
    (h : Spells (.members ms) bs) {first : Bool} {ahead gap : Bytes} (ha : Ahead first ahead)
    (hgap : Blank gap) (e : Entries) (rest : Bytes) :
    (readMembers first e (ahead ++ (bs ++ (gap ++ ascii '\x7d' :: rest)))).toOption =
      (e.after? ms).map fun e => (e.finish, rest) := by
  induction ms generalizing bs first ahead e with
  | nil => cases h
  | cons m ms ih =>
    obtain ⟨key, j⟩ := m
    obtain ⟨member, hm, ⟨rfl, rfl⟩ | ⟨before, after, more, hbefore, hafter, hmore, rfl⟩⟩ :=
      split_members h
    · refine toOption_readMember e ha hm (follows_gap hgap (by simp) rest) fun e => ?_
      rw [readMembers_eq, readMemberName_close false hgap rest]
      rfl
    · have hothers (e : Entries) := ih hmore (.next hbefore hafter) e
      simp only [List.append_assoc, List.cons_append] at hothers ⊢
      exact toOption_readMember e ha hm (follows_gap hbefore (by simp) _) hothers

/-! The whole text. -/

/-- The value of a text that begins with one, and what comes after it. -/
inductive Heads (j : Json) (after : Bytes) : Bytes → Prop where
  | intro {before bs : Bytes} (hbefore : Blank before) (h : Spells (.value j) bs) :
      Heads j after (before ++ bs ++ after)

theorem toOption_readValue_object {ms : List (String × Json)} {after text : Bytes}
    (h : Heads (.object ms) after text) :
    (readValue text).toOption = (ofMembers? ms).map fun m => (m, after) := by
  have hlist : ascii '\x7b' ≠ ascii '[' := by decide
  cases h with
  | intro hbefore h =>
    cases h with
    | emptyObject hgap =>
      simp only [List.append_assoc, List.cons_append, List.nil_append]
      rw [readValue, nextByte_gap hbefore (by decide)]
      dsimp only
      rw [if_neg hlist, if_pos rfl, readMembers_eq, readMemberName_close true hgap after]
      rfl
    | object hinner hgap h =>
      have hmembers := toOption_readMembers h (.first hinner) hgap ⟨none, none⟩ after
      simp only [List.append_assoc, List.cons_append, List.nil_append] at hmembers ⊢
      rw [readValue, nextByte_gap hbefore (by decide)]
      dsimp only
      rw [if_neg hlist, if_pos rfl, hmembers, ofMembers?, Option.map_map]
      rfl

/-! A list of two. -/

section List

variable {gap : Bytes} (hgap : Blank gap)
include hgap

theorem readItem_close (place : Nat) (rest : Bytes) :
    (readItem place (gap ++ ascii ']' :: rest)).toOption = none := by
  rw [readItem, nextByte_gap hgap (by decide)]
  dsimp only
  rw [if_pos rfl]
  rfl

theorem toOption_readItem_first {j : Json} {bs : Bytes} (h : Spells (.value j) bs) (rest : Bytes) :
    (readItem 0 (gap ++ bs ++ rest)).toOption = j.asEntry.map fun entry => (entry, rest) := by
  rw [← toOption_readEntry hgap h rest]
  obtain ⟨b, tail, rfl, hb⟩ := first_of_value h
  rw [List.append_assoc, List.cons_append, readItem, nextByte_gap hgap hb.not_blank]
  dsimp only
  rw [if_neg hb.ne_bracket, if_pos rfl]

theorem toOption_readItem_next {j : Json} {after bs : Bytes} (hafter : Blank after)
    (h : Spells (.value j) bs) (rest : Bytes) :
    (readItem 1 (gap ++ ascii ',' :: (after ++ bs ++ rest))).toOption =
      j.asEntry.map fun entry => (entry, rest) := by
  have hc : ascii ',' ≠ ascii ']' := by decide
  rw [← toOption_readEntry hafter h rest]
  obtain ⟨b, tail, rfl, hb⟩ := first_of_value h
  rw [readItem, nextByte_gap hgap (by decide)]
  dsimp only
  rw [if_neg hc, if_neg Nat.one_ne_zero, if_pos rfl, List.append_assoc, List.cons_append,
    nextByte_gap hafter hb.not_blank]
  dsimp only
  rw [if_neg hb.ne_bracket]

theorem readListEnd_close (rest : Bytes) : readListEnd (gap ++ ascii ']' :: rest) = .ok rest := by
  rw [readListEnd, nextByte_gap hgap (by decide)]
  dsimp only
  rw [if_pos rfl]

theorem readListEnd_comma (rest : Bytes) :
    (readListEnd (gap ++ ascii ',' :: rest)).toOption = none := by
  have hc : ascii ',' ≠ ascii ']' := by decide
  rw [readListEnd, nextByte_gap hgap (by decide)]
  dsimp only
  rw [if_neg hc, if_pos rfl]
  cases nextByte rest <;> rfl

end List

/-- The second value of a list and the end of the list. -/
def readSecond (name : Option String) (bs : Bytes) : Except JsonFault (Manifest × Bytes) :=
  (readItem 1 bs).bind fun (main, rest) =>
    (readListEnd rest).bind fun rest => .ok (⟨name, main⟩, rest)

theorem readList_eq (bs : Bytes) :
    readList bs = (readItem 0 bs).bind fun (name, rest) => readSecond name rest := rfl

theorem toOption_readSecond {j : Json} {js : List Json} {bs before after gap : Bytes}
    (h : Spells (.items (j :: js)) bs) (hbefore : Blank before) (hafter : Blank after)
    (hgap : Blank gap) (name : Option String) (rest : Bytes) :
    (readSecond name
      (before ++ ascii ',' :: (after ++ (bs ++ (gap ++ ascii ']' :: rest))))).toOption =
      if js = [] then j.asEntry.map fun main => (⟨name, main⟩, rest) else none := by
  obtain ⟨first, hj, ⟨rfl, rfl⟩ | ⟨before', after', more, hbefore', -, hmore, rfl⟩⟩ := split_items h
  · have hitem := toOption_readItem_next hbefore hafter hj (gap ++ ascii ']' :: rest)
    rw [List.append_assoc] at hitem
    rw [readSecond, toOption_bind, hitem, if_pos rfl]
    cases j.asEntry with
    | none => rfl
    | some main =>
      dsimp only [Option.map_some, Option.bind_some]
      rw [readListEnd_close hgap]
      rfl
  · have hne : js ≠ [] := by
      rintro rfl
      cases hmore
    have hitem := toOption_readItem_next hbefore hafter hj
      (before' ++ ascii ',' :: (after' ++ more ++ (gap ++ ascii ']' :: rest)))
    simp only [List.append_assoc, List.cons_append] at hitem ⊢
    rw [readSecond, toOption_bind, hitem, if_neg hne]
    cases j.asEntry with
    | none => rfl
    | some main =>
      dsimp only [Option.map_some, Option.bind_some]
      rw [toOption_bind, readListEnd_comma hbefore']
      rfl

theorem toOption_readList {js : List Json} {bs before gap : Bytes} (h : Spells (.items js) bs)
    (hbefore : Blank before) (hgap : Blank gap) (rest : Bytes) :
    (readList (before ++ (bs ++ (gap ++ ascii ']' :: rest)))).toOption =
      (ofItems? js).map fun m => (m, rest) := by
  rw [readList_eq, toOption_bind]
  cases js with
  | nil => cases h
  | cons a js =>
    obtain ⟨first, ha, ⟨rfl, rfl⟩ | ⟨before', after', more, hbefore', hafter', hmore, rfl⟩⟩ :=
      split_items h
    · have hitem := toOption_readItem_first hbefore ha (gap ++ ascii ']' :: rest)
      rw [List.append_assoc] at hitem
      rw [hitem]
      cases a.asEntry with
      | none => rfl
      | some name =>
        dsimp only [Option.map_some, Option.bind_some]
        rw [readSecond, toOption_bind, readItem_close hgap]
        rfl
    · cases js with
      | nil => cases hmore
      | cons b js =>
        have hitem := toOption_readItem_first hbefore ha
          (before' ++ ascii ',' :: (after' ++ more ++ (gap ++ ascii ']' :: rest)))
        simp only [List.append_assoc, List.cons_append] at hitem ⊢
        rw [hitem, ofItems?_cons_cons]
        cases a.asEntry with
        | none => rfl
        | some name =>
          dsimp only [Option.map_some, Option.bind_some]
          rw [toOption_readSecond hmore hbefore' hafter' hgap]
          split
          · rw [Option.map_map]
            rfl
          · rfl

/-! The whole text. -/

theorem toOption_readValue_list {js : List Json} {after text : Bytes}
    (h : Heads (.list js) after text) :
    (readValue text).toOption = (ofItems? js).map fun m => (m, after) := by
  cases h with
  | intro hbefore h =>
    cases h with
    | emptyList hgap =>
      simp only [List.append_assoc, List.cons_append, List.nil_append]
      rw [readValue, nextByte_gap hbefore (by decide)]
      dsimp only
      rw [if_pos rfl, readList_eq, toOption_bind, readItem_close hgap]
      rfl
    | list hinner hgap h =>
      have hitems := toOption_readList h hinner hgap after
      simp only [List.append_assoc, List.cons_append, List.nil_append] at hitems ⊢
      rw [readValue, nextByte_gap hbefore (by decide)]
      dsimp only
      rw [if_pos rfl, hitems]

theorem toOption_read {text after : Bytes} {found : Option Manifest}
    (h : (readValue text).toOption = found.map fun m => (m, after)) :
    (read text).toOption = if Blank after then found else none := by
  unfold read
  cases hv : readValue text with
  | error fault =>
    rw [hv] at h
    obtain rfl : found = none := by simpa [Except.toOption] using h.symm
    simp [Except.toOption]
  | ok value =>
    rw [hv] at h
    obtain ⟨m, rfl, rfl⟩ : ∃ m, found = some m ∧ (m, after) = value := by
      simpa [Except.toOption] using h.symm
    dsimp only
    by_cases hblank : Blank after
    · rw [if_pos hblank, skipBlanks_eq_nil_iff.mpr hblank]
      rfl
    · rw [if_neg hblank]
      cases hrest : skipBlanks after with
      | nil => exact absurd (skipBlanks_eq_nil_iff.mp hrest) hblank
      | cons => rfl

section Disk

variable {disk : Disk} {dir : Path} {text : Bytes}

theorem ofDisk_eq (hread : disk.read (dir.join manifestName) = .ok text) :
    ofDisk disk dir = (read text).mapError
      fun fault => .parsing (dir.join manifestName) (fault.message text) := by
  rw [ofDisk, hread]
  dsimp only
  cases read text <;> rfl

theorem ofDisk_of_read {m : Manifest} (hread : disk.read (dir.join manifestName) = .ok text)
    (h : (read text).toOption = some m) : ofDisk disk dir = .ok m := by
  rw [ofDisk_eq hread]
  cases hr : read text with
  | error fault => simp [hr, Except.toOption] at h
  | ok m' =>
    rw [hr] at h
    exact congrArg Except.ok (Option.some.inj h)

theorem ofDisk_of_not_read (hread : disk.read (dir.join manifestName) = .ok text)
    (h : (read text).toOption = none) :
    ∃ fault, ofDisk disk dir = .error (.parsing (dir.join manifestName) fault) := by
  rw [ofDisk_eq hread]
  cases hr : read text with
  | error fault => exact ⟨fault.message text, rfl⟩
  | ok m => simp [hr, Except.toOption] at h

theorem toOption_ofDisk (hread : disk.read (dir.join manifestName) = .ok text) :
    (ofDisk disk dir).toOption = (read text).toOption := by
  rw [ofDisk_eq hread]
  cases read text <;> rfl

end Disk

/-- A manifest is read from any text of one object with nothing after it but blanks, however it is laid
out and spelled and whatever else is in it, as long as its name and artifact are given once at most,
each as a text or nothing; other members and the order of members make no difference. It is also read
from a list of the two. Otherwise the text is at fault. -/
theorem reads_every_spelling (disk : Disk) (dir : Path) :
    let path := dir.join manifestName
    (∀ ms after text, disk.read path = .ok text → Heads (.object ms) after text →
      (Blank after → Readable ms → ∃ m, ofDisk disk dir = .ok m ∧ ∀ s,
        (m.name = some s ↔ ("name", Json.string s) ∈ ms) ∧
        (m.main = some s ↔ ("main", Json.string s) ∈ ms)) ∧
      ((¬Blank after ∨ ∃ key, Known key ∧ (2 ≤ (ms.map Prod.fst).count key ∨
          ∃ j, (key, j) ∈ ms ∧ ∀ entry, j ≠ ofEntry entry)) →
        ∃ fault, ofDisk disk dir = .error (.parsing path fault)) ∧
      ∀ disk' dir' ms' after' text', disk'.read (dir'.join manifestName) = .ok text' →
        Heads (.object ms') after' text' → Blank after → Blank after' →
        (asked ms).Perm (asked ms') →
        (ofDisk disk dir).toOption = (ofDisk disk' dir').toOption) ∧
    ∀ js after text, disk.read path = .ok text → Heads (.list js) after text →
      (∀ name main, js = [ofEntry name, ofEntry main] → Blank after →
        ofDisk disk dir = .ok ⟨name, main⟩) ∧
      (js.length ≠ 2 → ∃ fault, ofDisk disk dir = .error (.parsing path fault)) := by
  dsimp only
  refine ⟨fun ms after text hread hheads => ?_, fun js after text hread hheads => ?_⟩
  · have htext := toOption_read (toOption_readValue_object hheads)
    refine ⟨fun hafter hr => ?_, fun hbad => ?_, ?_⟩
    · obtain ⟨m, hm⟩ := Option.isSome_iff_exists.mp (isSome_ofMembers_iff.mpr hr)
      rw [if_pos hafter, hm] at htext
      exact ⟨m, ofDisk_of_read hread htext, ofMembers_eq_some hm⟩
    · refine ofDisk_of_not_read hread (htext.trans ?_)
      rcases hbad with hafter | hbad
      · exact if_neg hafter
      · rw [ofMembers_eq_none hbad, ite_self]
    · intro disk' dir' ms' after' text' hread' hheads' hafter hafter' hperm
      have htext' := toOption_read (toOption_readValue_object hheads')
      rw [toOption_ofDisk hread, toOption_ofDisk hread', htext, htext', if_pos hafter,
        if_pos hafter', ofMembers_congr hperm]
  · have htext := toOption_read (toOption_readValue_list hheads)
    refine ⟨?_, fun hlength => ?_⟩
    · rintro name main rfl hafter
      rw [if_pos hafter, ofItems_pair] at htext
      exact ofDisk_of_read hread htext
    · rw [ofItems_of_length hlength, ite_self] at htext
      exact ofDisk_of_not_read hread htext

/-- The artifact is given under a key spelled with an escape, next to a member that is skipped with the
lists in it. -/
theorem escaped_member_is_read :
    let text := word "\x7b\"\\u006dain\": \"\", \"\":[[ ]]\x7d\n"
    let disk : Disk :=
      { isFile := fun _ => true
        read := fun _ => .ok text
        canonical := fun _ => .error .notFound
        library := fun _ => none }
    ∃ m, ofDisk disk ⟨"addon"⟩ = .ok m ∧ m.name = none ∧ m.main = some "" := by
  intro text disk
  have hnone : Blank [] := by decide
  have hone : Blank [0x20] := by decide
  have hempty : SpellsString "" _ := .quoted (show SpellsChars "".toList [] from .nil)
  have hcode : SpellsUnit 'm'.toNat [ascii '0', ascii '0', ascii '6', ascii 'd'] := by
    have hzero : HexDigit 0 (ascii '0') := .inl (by decide)
    have hsix : HexDigit 6 (ascii '6') := .inl (by decide)
    have hd : HexDigit 13 (ascii 'd') := .inr (by decide)
    exact .digits hzero hzero hsix hd (by decide)
  have hplain (c : Char) (h : 0x20 ≤ c.toNat ∧ c ≠ '"' ∧ c ≠ '\\') :
      SpellsChar c (String.utf8EncodeChar c) := .plain h.1 h.2.1 h.2.2
  have hchars : SpellsChars ['m', 'a', 'i', 'n'] _ :=
    .cons (.unit hcode) (.cons (hplain 'a' (by decide)) (.cons (hplain 'i' (by decide))
      (.cons (hplain 'n' (by decide)) .nil)))
  have hmain : SpellsString "main" _ := .quoted (show SpellsChars "main".toList _ from hchars)
  have hlists := Spells.list hnone hnone (.oneItem (.emptyList hone))
  have hmembers := Spells.moreMembers (.oneMember hmain hnone hone (.string hempty)) hnone hone
    (.oneMember hempty hnone hnone hlists)
  obtain ⟨spelled, hheads, htext⟩ : ∃ spelled,
      Heads (.object [("main", .string ""), ("", .list [.list []])]) [0x0a] spelled ∧
        spelled = text :=
    ⟨_, .intro hnone (.object hnone hnone hmembers), by decide +kernel⟩
  rw [htext] at hheads
  obtain ⟨m, hm, hgiven⟩ := ((reads_every_spelling disk ⟨"addon"⟩).1 _ _ text rfl hheads).1
    (by decide) (isSome_ofMembers_iff.mp (by decide))
  refine ⟨m, hm, Option.eq_none_iff_forall_ne_some.mpr fun s hs => ?_, (hgiven "").2.mpr (by simp)⟩
  simpa using (hgiven s).1.mp hs

end Manifest

end Prebuilt
