import Mathlib.Data.List.Forall2
import Prebuilt.CommandLine.Run
import Prebuilt.Proofs.JsonDecoding

/-! JSON texts as they are written. What is written for a value is one of its spellings, so that it is
read back, and with it the targets of a listing. -/

namespace Prebuilt

def utf8Bytes (s : String) : Bytes := s.toByteArray.data.toList

def utf8 (cs : List Char) : Bytes := cs.flatMap String.utf8EncodeChar

theorem utf8Bytes_eq (s : String) : utf8Bytes s = utf8 s.toList := by
  conv_lhs => rw [← String.ofList_toList (s := s)]
  rw [utf8Bytes, String.toByteArray_ofList, List.utf8Encode, List.toList_data_toByteArray, utf8]

@[simp] theorem utf8_nil : utf8 [] = [] := rfl

theorem utf8_append (cs ds : List Char) : utf8 (cs ++ ds) = utf8 cs ++ utf8 ds := List.flatMap_append

theorem utf8EncodeChar_ascii {c : Char} (h : c.toNat < 0x80) :
    String.utf8EncodeChar c = [ascii c] := by
  have hc : c.val.toNat ≤ 127 := Nat.le_of_lt_succ h
  simp only [String.utf8EncodeChar, if_pos hc]
  rfl

theorem utf8_cons {c : Char} (h : c.toNat < 0x80) (cs : List Char) :
    utf8 (c :: cs) = ascii c :: utf8 cs := by
  rw [utf8, List.flatMap_cons, utf8EncodeChar_ascii h]
  rfl

theorem utf8_ascii {cs : List Char} (h : ∀ c ∈ cs, c.toNat < 0x80) : utf8 cs = cs.map ascii := by
  induction cs with
  | nil => rfl
  | cons c cs ih =>
    rw [List.forall_mem_cons] at h
    rw [utf8_cons h.1, ih h.2, List.map_cons]

namespace JsonValue

mutual

/-- The value that is written. -/
def value : JsonValue → Json
  | null => .null
  | string s => .string s
  | array items => .list (values items)
  | object members => .object (memberValues members)

def values : List JsonValue → List Json
  | [] => []
  | item :: items => item.value :: values items

def memberValues : List (String × JsonValue) → List (String × Json)
  | [] => []
  | (name, v) :: members => (name, v.value) :: memberValues members

end

theorem values_eq_map (items : List JsonValue) : values items = items.map value := by
  induction items with
  | nil => rfl
  | cons item items ih => rw [values, ih, List.map_cons]

/-! Strings. -/

theorem hexDigit_mod (n : Nat) : hexDigit (n % 16) = hexDigit n := by
  rw [hexDigit, Nat.mod_mod, ← hexDigit]

theorem hexDigit_spelled {n : Nat} (h : n < 16) :
    (hexDigit n).toNat < 0x80 ∧ Json.HexDigit n (ascii (hexDigit n)) := by
  have hall : ∀ n < 16, (hexDigit n).toNat < 0x80 ∧
      ((n < 10 ∧ (ascii (hexDigit n)).toNat = 0x30 + n) ∨
        (10 ≤ n ∧ n < 16 ∧ (ascii (hexDigit n)).toNat = 0x61 + (n - 10))) := by decide
  obtain ⟨hascii, h | ⟨hlow, hhigh, h⟩⟩ := hall n h
  · exact ⟨hascii, .inl h⟩
  · exact ⟨hascii, .inr ⟨hlow, hhigh, .inl h⟩⟩

theorem spellsUnit_control {n : Nat} (h : n < 0x20) :
    Json.SpellsUnit n (utf8 ['0', '0', hexDigit (n / 16), hexDigit n]) := by
  obtain ⟨hhigh, hhigh'⟩ := hexDigit_spelled (show n / 16 < 16 by omega)
  obtain ⟨hlow, hlow'⟩ := hexDigit_spelled (Nat.mod_lt n (show 0 < 16 by omega))
  rw [hexDigit_mod] at hlow hlow'
  have hzero : Json.HexDigit 0 (ascii '0') := .inl ⟨by decide, by decide⟩
  have hbytes : utf8 ['0', '0', hexDigit (n / 16), hexDigit n] =
      [ascii '0', ascii '0', ascii (hexDigit (n / 16)), ascii (hexDigit n)] := by
    refine utf8_ascii fun c hc => ?_
    simp only [List.mem_cons, List.not_mem_nil, or_false] at hc
    rcases hc with rfl | rfl | rfl | rfl
    · decide
    · decide
    · exact hhigh
    · exact hlow
  rw [hbytes]
  exact .digits hzero hzero hhigh' hlow' (by omega)

theorem spellsChar_escapeChar (c : Char) : Json.SpellsChar c (utf8 (escapeChar c)) := by
  unfold escapeChar
  split
  · next h =>
    rcases h with rfl | rfl
    · exact .letter (l := '"') (by decide)
    · exact .letter (l := '\\') (by decide)
  split
  · next h => exact h ▸ .letter (l := 'b') (by decide)
  split
  · next h => exact h ▸ .letter (l := 't') (by decide)
  split
  · next h => exact h ▸ .letter (l := 'n') (by decide)
  split
  · next h => exact h ▸ .letter (l := 'f') (by decide)
  split
  · next h => exact h ▸ .letter (l := 'r') (by decide)
  split
  · next h => exact .unit (spellsUnit_control h)
  · next hmark _ _ _ _ _ hcontrol =>
    rw [not_or] at hmark
    rw [utf8, List.flatMap_singleton]
    exact .plain (Nat.not_lt.mp hcontrol) hmark.1 hmark.2

theorem spellsChars_escaped (cs : List Char) : Json.SpellsChars cs (utf8 (cs.flatMap escapeChar)) := by
  induction cs with
  | nil => exact .nil
  | cons c cs ih =>
    rw [List.flatMap_cons, utf8_append]
    exact .cons (spellsChar_escapeChar c) ih

theorem spellsString_stringText (s : String) : Json.SpellsString s (utf8 (stringText s)) := by
  rw [stringText, utf8_append]
  exact .quoted (spellsChars_escaped s.toList)

/-! Values. -/

theorem blank_newline (depth : Nat) : Json.Blank (utf8 (newline depth)) := by
  have hascii : ∀ c ∈ newline depth, c = '\n' ∨ c = ' ' := by
    intro c hc
    rcases List.mem_cons.mp hc with rfl | hc
    · exact .inl rfl
    · exact .inr (List.eq_of_mem_replicate hc)
  rw [utf8_ascii fun c hc => by rcases hascii c hc with rfl | rfl <;> decide]
  intro b hb
  obtain ⟨c, hc, rfl⟩ := List.mem_map.mp hb
  rcases hascii c hc with rfl | rfl <;> decide

theorem spells_member (name : String) {j : Json} {bs : Bytes} (h : Json.Spells (.value j) bs) :
    Json.Spells (.members [(name, j)]) (utf8 (stringText name) ++ ascii ':' :: ascii ' ' :: bs) := by
  have hspace : Json.Blank [ascii ' '] := by decide
  simpa using Json.Spells.oneMember (spellsString_stringText name) Json.blank_nil hspace h

-- By recursion on the value and on what its brackets hold. What stands behind the first item, or the
-- first member, is written apart from it, so these two lemmas are about adding to one that is spelled.
mutual

theorem spells_pretty (v : JsonValue) (depth : Nat) :
    Json.Spells (.value v.value) (utf8 (v.pretty depth)) := by
  have hbefore := blank_newline (depth + 1)
  have hafter := blank_newline depth
  match v with
  | .null => exact .null
  | .string s => exact .string (spellsString_stringText s)
  | .array [] => exact .emptyList Json.blank_nil
  | .array (item :: items) =>
    have hitems := spells_prettyItems items (depth + 1) (spells_pretty item (depth + 1))
    simpa [pretty, utf8_append, utf8_cons, value, values] using Json.Spells.list hbefore hafter hitems
  | .object [] => exact .emptyObject Json.blank_nil
  | .object ((name, w) :: members) =>
    have hmembers := spells_prettyMembers members (depth + 1)
      (spells_member name (spells_pretty w (depth + 1)))
    simpa [pretty, utf8_append, utf8_cons, value, memberValues] using
      Json.Spells.object hbefore hafter hmembers

theorem spells_prettyItems (items : List JsonValue) (depth : Nat) {j : Json} {bs : Bytes}
    (h : Json.Spells (.value j) bs) :
    Json.Spells (.items (j :: values items)) (bs ++ utf8 (prettyItems depth items)) := by
  match items with
  | [] => simpa [prettyItems, values] using Json.Spells.oneItem h
  | item :: items =>
    have hmore := spells_prettyItems items depth (spells_pretty item depth)
    simpa [prettyItems, utf8_append, utf8_cons, values] using
      Json.Spells.moreItems h Json.blank_nil (blank_newline depth) hmore

theorem spells_prettyMembers (members : List (String × JsonValue)) (depth : Nat)
    {m : String × Json} {bs : Bytes} (h : Json.Spells (.members [m]) bs) :
    Json.Spells (.members (m :: memberValues members))
      (bs ++ utf8 (prettyMembers depth members)) := by
  match members with
  | [] => simpa [prettyMembers, memberValues] using h
  | (name, w) :: members =>
    have hmore := spells_prettyMembers members depth (spells_member name (spells_pretty w depth))
    simpa [prettyMembers, utf8_append, utf8_cons, memberValues] using
      Json.Spells.moreMembers h Json.blank_nil (blank_newline depth) hmore

end

theorem utf8Bytes_text (v : JsonValue) : utf8Bytes v.text = utf8 (v.pretty 0) := by
  rw [utf8Bytes_eq, text, String.toList_ofList]

end JsonValue

/-! Listings. -/

namespace Target

/-- What a listing tells of a target. -/
def record (t : Target) : Json :=
  .object [
    ("platform", .string t.platform),
    ("arch", .string t.arch),
    ("abi", match t.abi with
      | none => .null
      | some abi => .string abi),
    ("short_id", .string t.shortId),
    ("raw_triples", .list (t.rawTriples.map .string))]

theorem value_toJson (t : Target) : t.toJson.value = t.record := by
  have hraw : JsonValue.values (t.rawTriples.map .string) = t.rawTriples.map .string := by
    rw [JsonValue.values_eq_map, List.map_map]
    rfl
  simp only [toJson, record, JsonValue.value, JsonValue.memberValues, hraw]
  cases t.abi <;> rfl

theorem record_eq_iff (t u : Target) : t.record = u.record ↔
    t.platform = u.platform ∧ t.arch = u.arch ∧ t.abi = u.abi ∧ t.shortId = u.shortId ∧
      t.rawTriples = u.rawTriples := by
  have habi : (match t.abi with | none => Json.null | some abi => .string abi) =
      (match u.abi with | none => Json.null | some abi => .string abi) ↔ t.abi = u.abi := by
    cases t.abi <;> cases u.abi <;> simp
  have hraw : t.rawTriples.map Json.string = u.rawTriples.map Json.string ↔
      t.rawTriples = u.rawTriples := List.map_inj_right fun _ _ => Json.string.inj
  simp only [record, Json.object.injEq, List.cons.injEq, Prod.mk.injEq, Json.string.injEq,
    Json.list.injEq, habi, hraw, true_and, and_true]

end Target

theorem spells_listing (targets : List Target) :
    Json.Spells (.value (.list (targets.map Target.record))) (utf8Bytes (listingText targets)) := by
  have h := JsonValue.spells_pretty (.array (targets.map Target.toJson)) 0
  rw [JsonValue.value, JsonValue.values_eq_map, List.map_map] at h
  rw [listingText, JsonValue.utf8Bytes_text]
  simpa only [Function.comp_def, Target.value_toJson] using h

theorem decode_listing (targets : List Target) {after : Bytes} (hafter : Json.Blank after) :
    Json.decode (utf8Bytes (listingText targets) ++ after) =
      some (.list (targets.map Target.record)) :=
  Json.decode_spelled Json.blank_nil (spells_listing targets) hafter

/-- A listing is a JSON text, and what it says is the targets in their order, each with its five
entries. Two listings read alike only if they tell the same of each target. -/
theorem listing_is_read_back (targets : List Target) :
    let text := utf8Bytes (listingText targets)
    let whole : Json := .list (targets.map fun t => .object [
      ("platform", .string t.platform),
      ("arch", .string t.arch),
      ("abi", match t.abi with
        | none => .null
        | some abi => .string abi),
      ("short_id", .string t.shortId),
      ("raw_triples", .list (t.rawTriples.map .string))])
    Json.Spells (.value whole) text ∧ Json.decode text = some whole ∧
    (∀ j, Json.Spells (.value j) text ↔ j = whole) ∧
    ∀ others : List Target, listingText targets = listingText others ↔
      List.Forall₂ (fun t u => t.platform = u.platform ∧ t.arch = u.arch ∧ t.abi = u.abi ∧
        t.shortId = u.shortId ∧ t.rawTriples = u.rawTriples) targets others := by
  intro text whole
  have hwhole : Json.Spells (.value whole) text := spells_listing targets
  have hdecode (targets : List Target) : Json.decode (utf8Bytes (listingText targets)) =
      some (.list (targets.map Target.record)) := by
    simpa using decode_listing targets Json.blank_nil
  refine ⟨hwhole, hdecode targets, fun j => ⟨fun h => Json.eq_of_spells h hwhole, ?_⟩,
    fun others => ⟨fun h => ?_, fun h => ?_⟩⟩
  · rintro rfl
    exact hwhole
  · have hrecords : targets.map Target.record = others.map Target.record := by
      have hsame := hdecode targets
      rw [h, hdecode others] at hsame
      exact (Json.list.inj (Option.some.inj hsame)).symm
    rw [← List.forall₂_eq_eq_eq, List.forall₂_map_left_iff, List.forall₂_map_right_iff] at hrecords
    exact hrecords.imp fun t u => (t.record_eq_iff u).mp
  · have htoJson : targets.map Target.toJson = others.map Target.toJson := by
      rw [← List.forall₂_eq_eq_eq, List.forall₂_map_left_iff, List.forall₂_map_right_iff]
      refine h.imp fun t u hfields => ?_
      obtain ⟨hplatform, harch, habi, hid, hraw⟩ := hfields
      simp only [Target.toJson, hplatform, harch, habi, hid, hraw]
    rw [listingText, htoJson, ← listingText]

/-- A quotation mark in a name, and no binary interface. -/
example : listingText [⟨⟨"linux", "x\"64", none⟩, "x86_64-linux", ["amd64-linux"]⟩] =
    "[\n  \x7b\n    \"platform\": \"linux\",\n    \"arch\": \"x\\\"64\",\n    \"abi\": null,\n" ++
      "    \"short_id\": \"linux-x\\\"64\",\n    \"raw_triples\": [\n      \"x86_64-linux\",\n" ++
      "      \"amd64-linux\"\n    ]\n  \x7d\n]" := by
  decide +kernel

/-- The listing is printed with a line break after it, which is no part of any value. -/
theorem decode_targetsOutput (platform : Option String) :
    Json.decode (utf8Bytes (Command.targetsOutput platform true)) =
      some (.list ((Catalog.builtIn.targets.filter fun t => platform.all (· == t.platform)).map
        Target.record)) := by
  have hbreak : Json.Blank (utf8 "\n".toList) := by decide
  rw [Command.targetsOutput, if_pos rfl, utf8Bytes_eq, String.toList_append, utf8_append,
    ← utf8Bytes_eq]
  exact decode_listing _ hbreak

end Prebuilt
