import Prebuilt.Proofs.JsonSkipping

/-! Reading whole JSON texts. The decoder goes down into brackets as they open and gives back what it
has not read; every spelling of a value is read as that value, so no text spells two. -/

namespace Prebuilt

namespace Json

/-- The bytes after `b`, if that comes next. -/
def expect (b : UInt8) (bs : Bytes) : Option Bytes :=
  match nextByte bs with
  | none => none
  | some (c, rest) => if c = b then some rest else none

theorem expect_lt {b : UInt8} {bs rest : Bytes} (h : expect b bs = some rest) :
    rest.length < bs.length := by
  unfold expect at h
  split at h
  · cases h
  · next hn =>
    split at h
    · cases h
      exact nextByte_lt hn
    · cases h

/-- A word, a string or a number whose first byte is `b`. A number is kept as it is written. -/
def decodeScalar (b : UInt8) (rest : Bytes) : Option (Json × Bytes) := do
  let after ← (skipScalar b rest).toOption
  if b = ascii 'n' then pure (.null, after)
  else if b = ascii 't' then pure (.bool true, after)
  else if b = ascii 'f' then pure (.bool false, after)
  else if b = ascii '"' then do
    let (s, after) ← (scanString rest).toOption
    pure (.string s, after)
  else pure (.number ((b :: rest).take (rest.length + 1 - after.length)), after)

/-- The name of a member, and the bytes after its colon. -/
def decodeName (bs : Bytes) : Option (String × Bytes) := do
  let quoted ← expect (ascii '"') bs
  let (key, after) ← (scanString quoted).toOption
  let rest ← expect (ascii ':') after
  pure (key, rest)

theorem decodeName_lt {bs rest : Bytes} {key : String} (h : decodeName bs = some (key, rest)) :
    rest.length < bs.length := by
  simp only [decodeName, Option.bind_eq_bind, Option.bind_eq_some_iff] at h
  obtain ⟨quoted, hquote, ⟨key, after⟩, hstring, colon, hcolon, rfl, rfl⟩ := h
  have hscan : scanString quoted = .ok (key, after) := by
    cases hs : scanString quoted <;> simp_all [Except.toOption]
  have := expect_lt hquote
  have := scanString_rest_lt hscan
  have := expect_lt (show expect (ascii ':') after = some rest from hcolon)
  omega

mutual

/-- The value that comes next, and the bytes after it. -/
def decodeValue (bs : Bytes) : Option (Json × Bytes) :=
  match _hl : expect (ascii '[') bs with
  | some inner =>
    match expect (ascii ']') inner with
    | some after => some (.list [], after)
    | none => (decodeItems inner).map fun (js, after) => (.list js, after)
  | none =>
    match _ho : expect (ascii '\x7b') bs with
    | some inner =>
      match expect (ascii '\x7d') inner with
      | some after => some (.object [], after)
      | none => (decodeMembers inner).map fun (ms, after) => (.object ms, after)
    | none => (nextByte bs).bind fun (b, rest) => decodeScalar b rest
termination_by (bs.length, 0)
decreasing_by
  · left
    exact expect_lt _hl
  · left
    exact expect_lt _ho

/-- One value or more, up to the bracket that closes the list. -/
def decodeItems (bs : Bytes) : Option (List Json × Bytes) :=
  match decodeValue bs with
  | none => none
  | some (j, rest) =>
    -- It always is: a value takes a byte. Asked so that the recursion is seen to end.
    if rest.length < bs.length then
      (decodeMoreItems rest).map fun (js, after) => (j :: js, after)
    else none
termination_by (bs.length, 1)

def decodeMoreItems (bs : Bytes) : Option (List Json × Bytes) :=
  match expect (ascii ']') bs with
  | some after => some ([], after)
  | none =>
    match _hc : expect (ascii ',') bs with
    | none => none
    | some rest => decodeItems rest
termination_by (bs.length, 0)
decreasing_by
  left
  exact expect_lt _hc

/-- One member or more, up to the bracket that closes the object. -/
def decodeMembers (bs : Bytes) : Option (List (String × Json) × Bytes) :=
  match _hn : decodeName bs with
  | none => none
  | some (key, afterName) =>
    match decodeValue afterName with
    | none => none
    | some (j, rest) =>
      if rest.length < bs.length then
        (decodeMoreMembers rest).map fun (ms, after) => ((key, j) :: ms, after)
      else none
termination_by (bs.length, 0)
decreasing_by
  · left
    exact decodeName_lt _hn
  · left
    assumption

def decodeMoreMembers (bs : Bytes) : Option (List (String × Json) × Bytes) :=
  match expect (ascii '\x7d') bs with
  | some after => some ([], after)
  | none =>
    match _hc : expect (ascii ',') bs with
    | none => none
    | some rest => decodeMembers rest
termination_by (bs.length, 0)
decreasing_by
  left
  exact expect_lt _hc

end

/-- The value of a text that holds one and nothing but blanks around it. -/
def decode (text : Bytes) : Option Json := do
  let (j, rest) ← decodeValue text
  if skipBlanks rest = [] then pure j else none

section Equations

variable (bs : Bytes)

theorem decodeValue_eq : decodeValue bs =
    match expect (ascii '[') bs with
    | some inner =>
      match expect (ascii ']') inner with
      | some after => some (.list [], after)
      | none => (decodeItems inner).map fun (js, after) => (.list js, after)
    | none =>
      match expect (ascii '\x7b') bs with
      | some inner =>
        match expect (ascii '\x7d') inner with
        | some after => some (.object [], after)
        | none => (decodeMembers inner).map fun (ms, after) => (.object ms, after)
      | none => (nextByte bs).bind fun (b, rest) => decodeScalar b rest := by
  rw [decodeValue.eq_def]
  cases expect (ascii '[') bs with
  | some inner => rfl
  | none => cases expect (ascii '\x7b') bs <;> rfl

theorem decodeMoreItems_eq : decodeMoreItems bs =
    match expect (ascii ']') bs with
    | some after => some ([], after)
    | none => (expect (ascii ',') bs).bind decodeItems := by
  rw [decodeMoreItems.eq_def]
  cases expect (ascii ']') bs with
  | some after => rfl
  | none => cases expect (ascii ',') bs <;> rfl

theorem decodeMembers_eq : decodeMembers bs =
    (decodeName bs).bind fun (key, afterName) =>
      (decodeValue afterName).bind fun (j, rest) =>
        if rest.length < bs.length then
          (decodeMoreMembers rest).map fun (ms, after) => ((key, j) :: ms, after)
        else none := by
  rw [decodeMembers.eq_def]
  cases decodeName bs with
  | none => rfl
  | some named => cases hv : decodeValue named.2 <;> simp [hv]

theorem decodeMoreMembers_eq : decodeMoreMembers bs =
    match expect (ascii '\x7d') bs with
    | some after => some ([], after)
    | none => (expect (ascii ',') bs).bind decodeMembers := by
  rw [decodeMoreMembers.eq_def]
  cases expect (ascii '\x7d') bs with
  | some after => rfl
  | none => cases expect (ascii ',') bs <;> rfl

end Equations

/-! Every spelling is read. -/

section Spelled

variable {gap : Bytes} {b c : UInt8}

theorem expect_gap (hgap : Blank gap) (hb : ¬isBlank b) (tail : Bytes) :
    expect b (gap ++ b :: tail) = some tail := by
  simp [expect, nextByte_gap hgap hb]

theorem expect_other (hgap : Blank gap) (hc : ¬isBlank c) (hne : c ≠ b) (tail : Bytes) :
    expect b (gap ++ c :: tail) = none := by
  simp [expect, nextByte_gap hgap hc, hne]

theorem decodeName_spelled {key : String} {name before : Bytes} (hgap : Blank gap)
    (hname : SpellsString key name) (hbefore : Blank before) (tail : Bytes) :
    decodeName (gap ++ name ++ before ++ ascii ':' :: tail) = some (key, tail) := by
  cases hname with
  | @quoted body hbody =>
    have hscan := scanString_spelled hbody (before ++ ascii ':' :: tail)
    have hquote := expect_gap (b := ascii '"') hgap (by decide)
      (body ++ ascii '"' :: (before ++ ascii ':' :: tail))
    have hcolon := expect_gap (b := ascii ':') hbefore (by decide) tail
    simp only [List.append_assoc, List.cons_append, List.nil_append]
    simp only [decodeName, hquote, hscan, Except.toOption, Option.bind_eq_bind, Option.bind_some,
      hcolon]
    rfl

theorem decodeScalar_number {tail rest : Bytes}
    (hb : Digit b ∨ b = ascii '-')
    (h : skipScalar b (tail ++ rest) = .ok rest) :
    decodeScalar b (tail ++ rest) = some (.number (b :: tail), rest) := by
  have hlength : (tail ++ rest).length + 1 - rest.length = (b :: tail).length := by
    rw [List.length_append, List.length_cons]
    omega
  have htake : (b :: (tail ++ rest)).take ((tail ++ rest).length + 1 - rest.length) = b :: tail := by
    rw [hlength, ← List.cons_append, List.take_left]
  have hne {c : UInt8} (hdigit : ¬Digit c) (hminus : ascii '-' ≠ c) : b ≠ c := by
    rcases hb with hb | rfl
    · exact hb.ne hdigit
    · exact hminus
  have hn : b ≠ ascii 'n' := hne (by decide) (by decide)
  have ht : b ≠ ascii 't' := hne (by decide) (by decide)
  have hf : b ≠ ascii 'f' := hne (by decide) (by decide)
  have hquote : b ≠ ascii '"' := hne (by decide) (by decide)
  simp only [decodeScalar, h, if_neg hn, if_neg ht, if_neg hf, if_neg hquote]
  exact congrArg (fun digits => some (number digits, rest)) htake

theorem decodeScalar_string {s : String} {body : Bytes} (h : SpellsChars s.toList body)
    (rest : Bytes) : decodeScalar (ascii '"') (body ++ ascii '"' :: rest) =
      some (.string s, rest) := by
  simp only [decodeScalar, skipScalar_quote, skipString_spelled h, scanString_spelled h]
  rfl

end Spelled

/-- Reading a phrase takes exactly its bytes. Items and members are read in front of whatever comes
after them in their brackets. -/
def Decodes : Phrase → Bytes → Prop
  | .value j, bs => ∀ gap rest, Blank gap → Follows rest →
    decodeValue (gap ++ bs ++ rest) = some (j, rest)
  | .items js, bs => ∀ gap rest, Blank gap → Follows rest →
    decodeItems (gap ++ bs ++ rest) =
      (decodeMoreItems rest).map fun (more, after) => (js ++ more, after)
  | .members ms, bs => ∀ gap rest, Blank gap → Follows rest →
    decodeMembers (gap ++ bs ++ rest) =
      (decodeMoreMembers rest).map fun (more, after) => (ms ++ more, after)

section Phrases

variable {j : Json} {js : List Json} {m : String × Json} {ms : List (String × Json)}
  {before after bs more : Bytes}

theorem decodes_scalar {b : UInt8} {tail : Bytes} (hb : FirstByte j b) (hlist : b ≠ ascii '[')
    (hobject : b ≠ ascii '\x7b')
    (h : ∀ rest, Follows rest → decodeScalar b (tail ++ rest) = some (j, rest)) :
    Decodes (.value j) (b :: tail) := by
  intro gap rest hgap hrest
  rw [List.append_assoc, List.cons_append, decodeValue_eq, expect_other hgap hb.not_blank hlist,
    expect_other hgap hb.not_blank hobject, nextByte_gap hgap hb.not_blank]
  exact h rest hrest

theorem decodes_number (h : Number bs) : Decodes (.value (.number bs)) bs := by
  cases h with
  | plain h =>
    obtain ⟨b, tail, rfl, hb⟩ := h.first
    refine decodes_scalar (.digit hb) (hb.ne (by decide)) (hb.ne (by decide)) fun rest hrest => ?_
    refine decodeScalar_number (.inl hb) ?_
    rw [skipScalar_digit hb]
    exact skipNumber_spelled h hrest.halts
  | minus h =>
    refine decodes_scalar .minus (by decide) (by decide) fun rest hrest => ?_
    refine decodeScalar_number (.inr rfl) ?_
    rw [skipScalar_minus]
    exact skipNumber_spelled h hrest.halts

theorem decodes_string {s : String} (h : SpellsString s bs) : Decodes (.value (.string s)) bs := by
  cases h with
  | quoted h =>
    refine decodes_scalar .string (by decide) (by decide) fun rest _ => ?_
    rw [List.append_assoc]
    exact decodeScalar_string h rest

theorem decodeMoreItems_close {gap : Bytes} (hgap : Blank gap) (tail : Bytes) :
    decodeMoreItems (gap ++ ascii ']' :: tail) = some ([], tail) := by
  rw [decodeMoreItems_eq, expect_gap hgap (by decide)]

theorem decodeMoreItems_comma {gap : Bytes} (hgap : Blank gap) (tail : Bytes) :
    decodeMoreItems (gap ++ ascii ',' :: tail) = decodeItems tail := by
  rw [decodeMoreItems_eq, expect_other hgap (by decide) (by decide), expect_gap hgap (by decide)]
  rfl

theorem decodeMoreMembers_close {gap : Bytes} (hgap : Blank gap) (tail : Bytes) :
    decodeMoreMembers (gap ++ ascii '\x7d' :: tail) = some ([], tail) := by
  rw [decodeMoreMembers_eq, expect_gap hgap (by decide)]

theorem decodeMoreMembers_comma {gap : Bytes} (hgap : Blank gap) (tail : Bytes) :
    decodeMoreMembers (gap ++ ascii ',' :: tail) = decodeMembers tail := by
  rw [decodeMoreMembers_eq, expect_other hgap (by decide) (by decide), expect_gap hgap (by decide)]
  rfl

theorem decodes_emptyList (hinner : Blank before) :
    Decodes (.value (.list [])) (ascii '[' :: (before ++ [ascii ']'])) := by
  intro gap rest hgap _
  simp only [List.append_assoc, List.cons_append, List.nil_append]
  rw [decodeValue_eq, expect_gap hgap (by decide)]
  dsimp only
  rw [expect_gap hinner (by decide)]

theorem decodes_emptyObject (hinner : Blank before) :
    Decodes (.value (.object [])) (ascii '\x7b' :: (before ++ [ascii '\x7d'])) := by
  intro gap rest hgap _
  simp only [List.append_assoc, List.cons_append, List.nil_append]
  rw [decodeValue_eq, expect_other hgap (by decide) (by decide), expect_gap hgap (by decide)]
  dsimp only
  rw [expect_gap hinner (by decide)]

theorem decodes_list (hbefore : Blank before) (hafter : Blank after) (h : Spells (.items js) bs)
    (ih : Decodes (.items js) bs) :
    Decodes (.value (.list js)) (ascii '[' :: (before ++ bs ++ after ++ [ascii ']'])) := by
  intro gap rest hgap _
  have hinner := ih before (after ++ ascii ']' :: rest) hbefore (follows_gap hafter (by simp) rest)
  rw [decodeMoreItems_close hafter] at hinner
  obtain ⟨_, b, tail, rfl, hb⟩ := first_of_items h
  simp only [List.append_assoc, List.cons_append, List.nil_append] at hinner ⊢
  rw [decodeValue_eq, expect_gap hgap (by decide)]
  dsimp only
  rw [expect_other hbefore hb.not_blank hb.ne_bracket, hinner]
  simp

theorem decodes_object (hbefore : Blank before) (hafter : Blank after) (h : Spells (.members ms) bs)
    (ih : Decodes (.members ms) bs) : Decodes (.value (.object ms))
      (ascii '\x7b' :: (before ++ bs ++ after ++ [ascii '\x7d'])) := by
  intro gap rest hgap _
  have hinner := ih before (after ++ ascii '\x7d' :: rest) hbefore
    (follows_gap hafter (by simp) rest)
  rw [decodeMoreMembers_close hafter] at hinner
  obtain ⟨tail, rfl⟩ := first_of_members h
  simp only [List.append_assoc, List.cons_append, List.nil_append] at hinner ⊢
  rw [decodeValue_eq, expect_other hgap (by decide) (by decide), expect_gap hgap (by decide)]
  dsimp only
  rw [expect_other hbefore (by decide) (by decide), hinner]
  simp

theorem decodes_item (h : Spells (.value j) bs) (ih : Decodes (.value j) bs) :
    Decodes (.items [j]) bs := by
  intro gap rest hgap hrest
  obtain ⟨b, tail, rfl, -⟩ := first_of_value h
  have hshorter : rest.length < (gap ++ b :: tail ++ rest).length := by simp; omega
  rw [decodeItems.eq_def, ih gap rest hgap hrest]
  dsimp only
  rw [if_pos hshorter]
  rfl

theorem decodes_items (hbefore : Blank before) (hafter : Blank after)
    (ih : Decodes (.items [j]) bs) (ihmore : Decodes (.items js) more) :
    Decodes (.items (j :: js)) (bs ++ before ++ ascii ',' :: (after ++ more)) := by
  intro gap rest hgap hrest
  have hfirst := ih gap (before ++ ascii ',' :: (after ++ more ++ rest)) hgap
    (follows_gap hbefore (by simp) _)
  rw [decodeMoreItems_comma hbefore, ihmore after rest hafter hrest, Option.map_map] at hfirst
  simp only [List.append_assoc, List.cons_append] at hfirst ⊢
  exact hfirst

theorem decodes_member {key : String} {name : Bytes} (hname : SpellsString key name)
    (hbefore : Blank before) (hafter : Blank after) (ih : Decodes (.value j) bs) :
    Decodes (.members [(key, j)]) (name ++ before ++ ascii ':' :: (after ++ bs)) := by
  intro gap rest hgap hrest
  have hnamed := decodeName_spelled hgap hname hbefore (after ++ bs ++ rest)
  have hvalue := ih after rest hafter hrest
  have hshorter : rest.length <
      (gap ++ (name ++ before ++ ascii ':' :: (after ++ bs)) ++ rest).length := by
    simp only [List.length_append, List.length_cons]
    omega
  simp only [List.append_assoc, List.cons_append] at hnamed hvalue hshorter ⊢
  rw [decodeMembers_eq, hnamed, Option.bind_some]
  dsimp only
  rw [hvalue, Option.bind_some]
  dsimp only
  rw [if_pos hshorter]
  rfl

theorem decodes_members (hbefore : Blank before) (hafter : Blank after)
    (ih : Decodes (.members [m]) bs) (ihmore : Decodes (.members ms) more) :
    Decodes (.members (m :: ms)) (bs ++ before ++ ascii ',' :: (after ++ more)) := by
  intro gap rest hgap hrest
  have hfirst := ih gap (before ++ ascii ',' :: (after ++ more ++ rest)) hgap
    (follows_gap hbefore (by simp) _)
  rw [decodeMoreMembers_comma hbefore, ihmore after rest hafter hrest, Option.map_map] at hfirst
  simp only [List.append_assoc, List.cons_append] at hfirst ⊢
  exact hfirst

end Phrases

/-- By induction on the spelling; a value may stand in any brackets, so nothing is asked of what
follows it but that it may. -/
theorem decodes {p : Phrase} {bs : Bytes} (h : Spells p bs) : Decodes p bs := by
  induction h with
  | null => exact decodes_scalar .null (by decide) (by decide) fun rest _ => rfl
  | true => exact decodes_scalar .true (by decide) (by decide) fun rest _ => rfl
  | false => exact decodes_scalar .false (by decide) (by decide) fun rest _ => rfl
  | number h => exact decodes_number h
  | string h => exact decodes_string h
  | emptyList hinner => exact decodes_emptyList hinner
  | emptyObject hinner => exact decodes_emptyObject hinner
  | list hbefore hafter h ih => exact decodes_list hbefore hafter h ih
  | object hbefore hafter h ih => exact decodes_object hbefore hafter h ih
  | oneItem h ih => exact decodes_item h ih
  | moreItems h hbefore hafter _ ih ihmore =>
    exact decodes_items hbefore hafter (decodes_item h ih) ihmore
  | oneMember hname hbefore hafter _ ih => exact decodes_member hname hbefore hafter ih
  | moreMembers _ hbefore hafter _ ih ihmore => exact decodes_members hbefore hafter ih ihmore

theorem decode_spelled {j : Json} {before bs after : Bytes} (hbefore : Blank before)
    (h : Spells (.value j) bs) (hafter : Blank after) :
    decode (before ++ bs ++ after) = some j := by
  have hfollows : Follows after := fun b hb => .inl (hafter b (List.mem_of_mem_head? hb))
  rw [decode, decodes h before after hbefore hfollows]
  exact if_pos (skipBlanks_eq_nil_iff.mpr hafter)

theorem blank_nil : Blank [] := fun _ hb => nomatch hb

/-- No text spells two values. -/
theorem eq_of_spells {j j' : Json} {bs : Bytes} (h : Spells (.value j) bs)
    (h' : Spells (.value j') bs) : j = j' := by
  have hj := decode_spelled blank_nil h blank_nil
  rw [decode_spelled blank_nil h' blank_nil] at hj
  exact (Option.some.inj hj).symm

end Json

end Prebuilt
