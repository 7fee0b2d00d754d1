import Mathlib.Data.List.TakeWhile
import Prebuilt.Json.Skip
import Prebuilt.Proofs.JsonStrings

/-! Passing over JSON values. However a value is spelled and however deep it is, exactly its bytes are
passed over. -/

namespace Prebuilt

namespace Json

theorem isBlankByte_iff {b : UInt8} : isBlankByte b = true ↔ isBlank b := by
  have hspace : ascii ' ' = 0x20 := rfl
  have hline : ascii '\n' = 0x0a := rfl
  have htab : ascii '\t' = 0x09 := rfl
  have hreturn : ascii '\r' = 0x0d := rfl
  simp only [isBlankByte, isBlank, hspace, hline, htab, hreturn, Bool.or_eq_true, beq_iff_eq,
    or_assoc]

theorem isDigitByte_iff {b : UInt8} : isDigitByte b = true ↔ Digit b := by
  simp only [isDigitByte, Digit, Bool.and_eq_true, decide_eq_true_eq, UInt8.le_iff_toNat_le]
  exact Iff.rfl

theorem skipBlanks_append {gap : Bytes} (h : Blank gap) (tail : Bytes) :
    skipBlanks (gap ++ tail) = skipBlanks tail :=
  List.dropWhile_append_of_pos fun b hb => isBlankByte_iff.mpr (h b hb)

theorem skipBlanks_eq_nil_iff {bs : Bytes} : skipBlanks bs = [] ↔ Blank bs := by
  rw [skipBlanks, List.dropWhile_eq_nil_iff]
  simp only [isBlankByte_iff]
  exact Iff.rfl

theorem nextByte_gap {gap : Bytes} {b : UInt8} (hgap : Blank gap) (hb : ¬isBlank b)
    (tail : Bytes) : nextByte (gap ++ b :: tail) = some (b, tail) := by
  have hfalse : isBlankByte b = false := by
    rw [← isBlankByte_iff] at hb
    simpa using hb
  rw [nextByte, skipBlanks_append hgap, skipBlanks, List.dropWhile_cons_of_neg (by simp [hfalse])]

theorem scanWord_word (cs : List Char) (tail : Bytes) :
    scanWord cs (cs.map ascii ++ tail) = .ok tail := by
  induction cs with
  | nil => rfl
  | cons c cs ih =>
    rw [List.map_cons, List.cons_append, scanWord, if_pos rfl]
    exact ih

/-! Numbers. -/

/-- What may follow a number: nothing that would be read as more of it. -/
structure Halts (rest : Bytes) : Prop where
  digit : ∀ b ∈ rest.head?, ¬Digit b
  point : ∀ b ∈ rest.head?, b ≠ ascii '.'
  mark : ∀ b ∈ rest.head?, ¬(b = ascii 'e' ∨ b = ascii 'E')

theorem isExponentMark_iff {b : UInt8} :
    isExponentMark b = true ↔ b = ascii 'e' ∨ b = ascii 'E' := by
  simp [isExponentMark]

theorem Digit.isSign {b : UInt8} (h : Digit b) : isSign b = false := by
  have hplus : b ≠ ascii '+' := by
    rintro rfl
    exact absurd h.1 (by decide)
  have hminus : b ≠ ascii '-' := by
    rintro rfl
    exact absurd h.1 (by decide)
  simp [Prebuilt.isSign, hplus, hminus]

theorem skipDigits_append {ds rest : Bytes} (hds : ∀ b ∈ ds, Digit b)
    (hrest : ∀ b ∈ rest.head?, ¬Digit b) : skipDigits (ds ++ rest) = rest := by
  rw [skipDigits, List.dropWhile_append_of_pos fun b hb => isDigitByte_iff.mpr (hds b hb)]
  cases rest with
  | nil => rfl
  | cons b tail =>
    have hb : ¬isDigitByte b = true := fun h => hrest b rfl (isDigitByte_iff.mp h)
    rw [List.dropWhile_cons_of_neg hb]

theorem skipExponent_spelled {sign ds rest : Bytes}
    (hsign : sign = [] ∨ sign = [ascii '+'] ∨ sign = [ascii '-']) (hds : Digits ds)
    (hrest : Halts rest) : skipExponent (sign ++ ds ++ rest) = .ok rest := by
  obtain ⟨hne, hdigits⟩ := hds
  cases ds with
  | nil => exact absurd rfl hne
  | cons d ds =>
    have hd : isDigitByte d = true := isDigitByte_iff.mpr (hdigits d List.mem_cons_self)
    have htail := skipDigits_append (fun b hb => hdigits b (List.mem_cons_of_mem d hb)) hrest.digit
    have hunsigned : isSign d = false := (hdigits d List.mem_cons_self).isSign
    rcases hsign with rfl | rfl | rfl
    · simp [skipExponent, hunsigned, hd, htail]
    · simp [skipExponent, isSign, hd, htail]
    · simp [skipExponent, isSign, hd, htail]

theorem skipAfterFraction_spelled {exponent rest : Bytes} (he : Exponent exponent)
    (hrest : Halts rest) : skipAfterFraction (exponent ++ rest) = .ok rest := by
  cases he with
  | none =>
    cases rest with
    | nil => rfl
    | cons b tail =>
      have hb : ¬isExponentMark b = true := fun h => hrest.mark b rfl (isExponentMark_iff.mp h)
      rw [List.nil_append, skipAfterFraction, if_neg hb]
  | some hmark hsign hds =>
    rw [List.cons_append, skipAfterFraction, if_pos (isExponentMark_iff.mpr hmark)]
    exact skipExponent_spelled hsign hds hrest

/-- What starts with a fraction, an exponent or neither does not start with a digit. -/
theorem not_digit_after_integer {fraction exponent rest : Bytes} (hf : Fraction fraction)
    (he : Exponent exponent) (hrest : Halts rest) :
    ∀ b ∈ (fraction ++ exponent ++ rest).head?, ¬Digit b := by
  rintro b hb ⟨hlow, hhigh⟩
  cases hf with
  | none =>
    cases he with
    | none => exact hrest.digit b hb ⟨hlow, hhigh⟩
    | some hmark =>
      obtain rfl := Option.some.inj hb
      rcases hmark with rfl | rfl
      · exact absurd hhigh (by decide)
      · exact absurd hhigh (by decide)
  | some =>
    obtain rfl := Option.some.inj hb
    exact absurd hlow (by decide)

theorem skipAfterInteger_of_ne {b : UInt8} (hb : b ≠ ascii '.') (tail : Bytes) :
    skipAfterInteger (b :: tail) = skipAfterFraction (b :: tail) := by
  rw [skipAfterInteger.eq_def]
  dsimp only
  rw [if_neg hb, skipAfterFraction]

theorem skipAfterInteger_spelled {fraction exponent rest : Bytes} (hf : Fraction fraction)
    (he : Exponent exponent) (hrest : Halts rest) :
    skipAfterInteger (fraction ++ exponent ++ rest) = .ok rest := by
  have hafter := skipAfterFraction_spelled he hrest
  cases hf with
  | none =>
    rw [List.nil_append]
    cases he with
    | none =>
      cases rest with
      | nil => rfl
      | cons b tail => exact (skipAfterInteger_of_ne (hrest.point b rfl) tail).trans hafter
    | @some mark _ _ hmark =>
      have hpoint : mark ≠ ascii '.' := by
        rcases hmark with rfl | rfl
        · decide
        · decide
      exact (skipAfterInteger_of_ne hpoint _).trans hafter
  | @some ds hds =>
    have hskip : skipDigits (ds ++ (exponent ++ rest)) = exponent ++ rest :=
      skipDigits_append hds.2 (not_digit_after_integer .none he hrest)
    obtain ⟨hne, hdigits⟩ := hds
    cases ds with
    | nil => exact absurd rfl hne
    | cons d ds =>
      have hd := isDigitByte_iff.mpr (hdigits d List.mem_cons_self)
      rw [List.append_assoc, List.cons_append, skipAfterInteger.eq_def]
      dsimp only
      rw [if_pos rfl, List.cons_append]
      dsimp only
      rw [if_pos hd, ← List.cons_append, hskip, hafter]

theorem skipNumber_spelled {bs rest : Bytes} (h : Unsigned bs) (hrest : Halts rest) :
    skipNumber (bs ++ rest) = .ok rest := by
  cases h with
  | @parts integer fraction exponent hi hf he =>
    have hafter := skipAfterInteger_spelled hf he hrest
    have hdigit := not_digit_after_integer hf he hrest
    rw [List.append_assoc, List.append_assoc, ← List.append_assoc fraction]
    generalize fraction ++ exponent ++ rest = tail at hafter hdigit
    cases hi with
    | zero =>
      rw [List.cons_append, List.nil_append, skipNumber.eq_def]
      dsimp only
      rw [if_pos rfl]
      cases tail with
      | nil => exact hafter
      | cons b tail =>
        have hb : ¬isDigitByte b = true := fun h => hdigit b rfl (isDigitByte_iff.mp h)
        dsimp only
        rw [if_neg hb, hafter]
    | digits hd hzero hds =>
      rw [List.cons_append, skipNumber.eq_def]
      dsimp only
      rw [if_neg hzero, if_pos (isDigitByte_iff.mpr hd), skipDigits_append hds hdigit, hafter]

/-! Values. -/

/-- What follows a value in an object or a list, or at the end of a text. -/
def Follows (rest : Bytes) : Prop :=
  ∀ b ∈ rest.head?, isBlank b ∨ b = ascii ',' ∨ b = ascii ']' ∨ b = ascii '\x7d'

theorem Follows.halts {rest : Bytes} (h : Follows rest) : Halts rest := by
  refine ⟨fun b hb => ?_, fun b hb => ?_, fun b hb => ?_⟩
  · rcases h b hb with (rfl | rfl | rfl | rfl) | rfl | rfl | rfl <;> decide
  · rcases h b hb with (rfl | rfl | rfl | rfl) | rfl | rfl | rfl <;> decide
  · rcases h b hb with (rfl | rfl | rfl | rfl) | rfl | rfl | rfl <;> decide

theorem follows_gap {gap : Bytes} {b : UInt8} (hgap : Blank gap)
    (hb : b = ascii ',' ∨ b = ascii ']' ∨ b = ascii '\x7d') (tail : Bytes) :
    Follows (gap ++ b :: tail) := by
  intro x hx
  cases gap with
  | nil =>
    obtain rfl := Option.some.inj hx
    exact .inr hb
  | cons y gap =>
    obtain rfl := Option.some.inj hx
    exact .inl (hgap y List.mem_cons_self)

/-- The bytes that a value may begin with. -/
inductive FirstByte : Json → UInt8 → Prop where
  | null : FirstByte .null (ascii 'n')
  | true : FirstByte (.bool true) (ascii 't')
  | false : FirstByte (.bool false) (ascii 'f')
  | minus {ds : Bytes} : FirstByte (.number ds) (ascii '-')
  | digit {ds : Bytes} {b : UInt8} (h : Digit b) : FirstByte (.number ds) b
  | string {s : String} : FirstByte (.string s) (ascii '"')
  | list {js : List Json} : FirstByte (.list js) (ascii '[')
  | object {ms : List (String × Json)} : FirstByte (.object ms) (ascii '\x7b')

theorem Unsigned.first {bs : Bytes} (h : Unsigned bs) : ∃ b tail, bs = b :: tail ∧ Digit b := by
  cases h with
  | parts hi =>
    cases hi with
    | zero => exact ⟨_, _, rfl, by decide⟩
    | digits hd => exact ⟨_, _, rfl, hd⟩

theorem first_of_value {j : Json} {bs : Bytes} (h : Spells (.value j) bs) :
    ∃ b tail, bs = b :: tail ∧ FirstByte j b := by
  cases h with
  | null => exact ⟨_, _, rfl, .null⟩
  | true => exact ⟨_, _, rfl, .true⟩
  | false => exact ⟨_, _, rfl, .false⟩
  | number h =>
    cases h with
    | plain h =>
      obtain ⟨b, tail, he, hb⟩ := h.first
      exact ⟨b, tail, he, .digit hb⟩
    | minus => exact ⟨_, _, rfl, .minus⟩
  | string h =>
    cases h
    exact ⟨_, _, rfl, .string⟩
  | emptyList => exact ⟨_, _, rfl, .list⟩
  | list => exact ⟨_, _, rfl, .list⟩
  | emptyObject => exact ⟨_, _, rfl, .object⟩
  | object => exact ⟨_, _, rfl, .object⟩

/-- To go on after a value, which the innermost open bracket has to allow. -/
def resume : List JsonFrame → Bytes → Except JsonFault Bytes
  | [], rest => .ok rest
  | frame :: stack, rest => skipFrom (.after frame) stack rest

section Stages

variable (stack : List JsonFrame) (bs : Bytes)

theorem skipFrom_value : skipFrom .value stack bs =
    match nextByte bs with
    | none => faultOn .valueEnds []
    | some (b, rest) =>
      if b = ascii '[' then skipFrom (.opened .list) stack rest
      else if b = ascii '\x7b' then skipFrom (.opened .object) stack rest
      else (skipScalar b rest).bind (resume stack) := by
  rw [skipFrom.eq_def]
  dsimp only
  split
  · next hn => rw [hn]
  · next b rest hn =>
    rw [hn]
    dsimp only
    split
    · rfl
    · split
      · rfl
      · split
        · next hs =>
          rw [hs]
          rfl
        · next hs =>
          rw [hs]
          cases stack <;> rfl

theorem skipFrom_opened (frame : JsonFrame) : skipFrom (.opened frame) stack bs =
    match nextByte bs with
    | none => faultOn frame.ends []
    | some (b, rest) =>
      if b = frame.closing then resume stack rest
      else match frame with
        | .list => skipFrom .value (.list :: stack) bs
        | .object => skipFrom .name stack bs := by
  rw [skipFrom.eq_def]
  dsimp only
  split
  · next hn => rw [hn]
  · next hn =>
    rw [hn]
    cases stack <;> rfl

theorem skipFrom_after (frame : JsonFrame) : skipFrom (.after frame) stack bs =
    match nextByte bs with
    | none => faultOn frame.ends []
    | some (b, rest) =>
      if b = ascii ',' then
        match frame with
        | .list => skipFrom .value (.list :: stack) rest
        | .object => skipFrom .name stack rest
      else if b = frame.closing then resume stack rest
      else faultOn frame.noComma (b :: rest) := by
  rw [skipFrom.eq_def]
  dsimp only
  split
  · next hn => rw [hn]
  · next hn =>
    rw [hn]
    cases stack <;> rfl

theorem skipFrom_name : skipFrom .name stack bs =
    match nextByte bs with
    | none => faultOn .objectEnds []
    | some (b, rest) =>
      if b = ascii '"' then
        (skipString rest).bind fun afterName =>
          (skipColon afterName).bind fun afterColon => skipFrom .value (.object :: stack) afterColon
      else faultOn .keyNoString (b :: rest) := by
  rw [skipFrom.eq_def]
  dsimp only
  split
  · next hn => rw [hn]
  · next hn =>
    rw [hn]
    dsimp only
    split
    · split
      · next hs =>
        rw [hs]
        rfl
      · next hs =>
        rw [hs]
        dsimp only [Except.bind]
        split
        · next hc => rw [hc]
        · next hc => rw [hc]
    · rfl

end Stages

theorem Digit.not_blank {b : UInt8} (h : Digit b) : ¬isBlank b := by
  rintro (rfl | rfl | rfl | rfl) <;> exact absurd h (by decide)

theorem Digit.ne {b c : UInt8} (h : Digit b) (hc : ¬Digit c) : b ≠ c := by
  rintro rfl
  exact hc h

theorem FirstByte.not_blank {j : Json} {b : UInt8} (h : FirstByte j b) : ¬isBlank b := by
  cases h with
  | digit h => exact h.not_blank
  | _ => decide

theorem FirstByte.ne_bracket {j : Json} {b : UInt8} (h : FirstByte j b) : b ≠ ascii ']' := by
  cases h with
  | digit h => exact h.ne (by decide)
  | _ => decide

theorem first_of_items {js : List Json} {bs : Bytes} (h : Spells (.items js) bs) :
    ∃ j b tail, bs = b :: tail ∧ FirstByte j b := by
  cases h with
  | oneItem h =>
    obtain ⟨b, tail, rfl, hb⟩ := first_of_value h
    exact ⟨_, b, tail, rfl, hb⟩
  | moreItems h =>
    obtain ⟨b, tail, rfl, hb⟩ := first_of_value h
    exact ⟨_, b, _, rfl, hb⟩

theorem first_of_member {m : String × Json} {bs : Bytes} (h : Spells (.members [m]) bs) :
    ∃ tail, bs = ascii '"' :: tail := by
  cases h with
  | oneMember hname =>
    cases hname
    exact ⟨_, rfl⟩
  | moreMembers h _ _ hmore => nomatch hmore

theorem first_of_members {ms : List (String × Json)} {bs : Bytes} (h : Spells (.members ms) bs) :
    ∃ tail, bs = ascii '"' :: tail := by
  cases h with
  | oneMember hname =>
    cases hname
    exact ⟨_, rfl⟩
  | moreMembers h =>
    obtain ⟨tail, rfl⟩ := first_of_member h
    exact ⟨_, rfl⟩

theorem skipScalar_digit {b : UInt8} (h : Digit b) (tail : Bytes) :
    skipScalar b tail = skipNumber (b :: tail) := by
  rw [skipScalar, if_neg (h.ne (by decide)), if_neg (h.ne (by decide)),
    if_neg (h.ne (by decide)), if_neg (h.ne (by decide)),
    if_pos (isDigitByte_iff.mpr h)]

theorem skipScalar_quote (tail : Bytes) : skipScalar (ascii '"') tail = skipString tail := rfl

theorem skipScalar_minus (tail : Bytes) : skipScalar (ascii '-') tail = skipNumber tail := rfl

/-- Passing over a phrase takes exactly its bytes, whatever follows. -/
def Skips : Phrase → Bytes → Prop
  | .value _, bs => ∀ stack gap rest, Blank gap → Follows rest →
    skipFrom .value stack (gap ++ bs ++ rest) = resume stack rest
  | .items _, bs => ∀ stack gap rest, Blank gap → Follows rest →
    skipFrom .value (.list :: stack) (gap ++ bs ++ rest) = skipFrom (.after .list) stack rest
  | .members _, bs => ∀ stack gap rest, Blank gap → Follows rest →
    skipFrom .name stack (gap ++ bs ++ rest) = skipFrom (.after .object) stack rest

theorem skips_scalar {j : Json} {b : UInt8} {tail : Bytes} (hb : FirstByte j b)
    (hlist : b ≠ ascii '[') (hobject : b ≠ ascii '\x7b')
    (h : ∀ rest, Follows rest → skipScalar b (tail ++ rest) = .ok rest) :
    Skips (.value j) (b :: tail) := by
  intro stack gap rest hgap hrest
  rw [List.append_assoc, List.cons_append, skipFrom_value, nextByte_gap hgap hb.not_blank]
  dsimp only
  rw [if_neg hlist, if_neg hobject, h rest hrest]
  rfl

/-- A bracket, and what stands in it. -/
theorem skipFrom_list {stack : List JsonFrame} {gap : Bytes} (hgap : Blank gap) (tail : Bytes) :
    skipFrom .value stack (gap ++ ascii '[' :: tail) = skipFrom (.opened .list) stack tail := by
  rw [skipFrom_value, nextByte_gap hgap (by decide)]
  rfl

theorem skipFrom_object {stack : List JsonFrame} {gap : Bytes} (hgap : Blank gap) (tail : Bytes) :
    skipFrom .value stack (gap ++ ascii '\x7b' :: tail) =
      skipFrom (.opened .object) stack tail := by
  rw [skipFrom_value, nextByte_gap hgap (by decide)]
  rfl

theorem not_blank_closing (frame : JsonFrame) : ¬isBlank frame.closing := by
  cases frame <;> decide

theorem skipFrom_close_opened (frame : JsonFrame) {stack : List JsonFrame} {gap : Bytes}
    (hgap : Blank gap) (tail : Bytes) :
    skipFrom (.opened frame) stack (gap ++ frame.closing :: tail) = resume stack tail := by
  rw [skipFrom_opened, nextByte_gap hgap (not_blank_closing frame)]
  dsimp only
  rw [if_pos rfl]

theorem skipFrom_close (frame : JsonFrame) {stack : List JsonFrame} {gap : Bytes}
    (hgap : Blank gap) (tail : Bytes) :
    skipFrom (.after frame) stack (gap ++ frame.closing :: tail) = resume stack tail := by
  have hcomma : frame.closing ≠ ascii ',' := by cases frame <;> decide
  rw [skipFrom_after, nextByte_gap hgap (not_blank_closing frame)]
  dsimp only
  rw [if_neg hcomma, if_pos rfl]

theorem skipFrom_opened_list {stack : List JsonFrame} {gap : Bytes} (hgap : Blank gap) {j : Json}
    {b : UInt8} (hb : FirstByte j b) (tail : Bytes) :
    skipFrom (.opened .list) stack (gap ++ b :: tail) =
      skipFrom .value (.list :: stack) (gap ++ b :: tail) := by
  rw [skipFrom_opened, nextByte_gap hgap hb.not_blank]
  dsimp only
  exact if_neg hb.ne_bracket

theorem skipFrom_opened_object {stack : List JsonFrame} {gap : Bytes} (hgap : Blank gap)
    (tail : Bytes) : skipFrom (.opened .object) stack (gap ++ ascii '"' :: tail) =
      skipFrom .name stack (gap ++ ascii '"' :: tail) := by
  rw [skipFrom_opened, nextByte_gap hgap (by decide)]
  rfl

theorem skipFrom_comma_list (stack : List JsonFrame) {gap : Bytes} (hgap : Blank gap)
    (tail : Bytes) : skipFrom (.after .list) stack (gap ++ ascii ',' :: tail) =
      skipFrom .value (.list :: stack) tail := by
  rw [skipFrom_after, nextByte_gap hgap (by decide)]
  rfl

theorem skipFrom_comma_object (stack : List JsonFrame) {gap : Bytes} (hgap : Blank gap)
    (tail : Bytes) : skipFrom (.after .object) stack (gap ++ ascii ',' :: tail) =
      skipFrom .name stack tail := by
  rw [skipFrom_after, nextByte_gap hgap (by decide)]
  rfl

theorem skipColon_gap {gap : Bytes} (hgap : Blank gap) (tail : Bytes) :
    skipColon (gap ++ ascii ':' :: tail) = .ok tail := by
  rw [skipColon, nextByte_gap hgap (by decide)]
  rfl

section Phrases

variable {j : Json} {js : List Json} {m : String × Json} {ms : List (String × Json)}
  {before after bs more : Bytes}

theorem skips_number (h : Number bs) : Skips (.value (.number bs)) bs := by
  cases h with
  | plain h =>
    obtain ⟨b, tail, rfl, hb⟩ := h.first
    refine skips_scalar (.digit hb) (hb.ne (by decide)) (hb.ne (by decide)) fun rest hrest => ?_
    rw [skipScalar_digit hb]
    exact skipNumber_spelled h hrest.halts
  | minus h =>
    refine skips_scalar .minus (by decide) (by decide) fun rest hrest => ?_
    rw [skipScalar_minus]
    exact skipNumber_spelled h hrest.halts

theorem skips_string {s : String} (h : SpellsString s bs) : Skips (.value (.string s)) bs := by
  cases h with
  | quoted h =>
    refine skips_scalar .string (by decide) (by decide) fun rest _ => ?_
    rw [skipScalar_quote, List.append_assoc]
    exact skipString_spelled h rest

theorem skips_list (hbefore : Blank before) (hafter : Blank after) (h : Spells (.items js) bs)
    (ih : Skips (.items js) bs) :
    Skips (.value (.list js)) (ascii '[' :: (before ++ bs ++ after ++ [ascii ']'])) := by
  intro stack gap rest hgap hrest
  have hinner := ih stack before (after ++ ascii ']' :: rest) hbefore
    (follows_gap hafter (by simp) rest)
  obtain ⟨_, b, tail, rfl, hb⟩ := first_of_items h
  simp only [List.append_assoc, List.cons_append, List.nil_append] at hinner ⊢
  rw [skipFrom_list hgap, skipFrom_opened_list hbefore hb, hinner]
  exact skipFrom_close .list hafter rest

theorem skips_object (hbefore : Blank before) (hafter : Blank after) (h : Spells (.members ms) bs)
    (ih : Skips (.members ms) bs) : Skips (.value (.object ms))
      (ascii '\x7b' :: (before ++ bs ++ after ++ [ascii '\x7d'])) := by
  intro stack gap rest hgap hrest
  have hinner := ih stack before (after ++ ascii '\x7d' :: rest) hbefore
    (follows_gap hafter (by simp) rest)
  obtain ⟨tail, rfl⟩ := first_of_members h
  simp only [List.append_assoc, List.cons_append, List.nil_append] at hinner ⊢
  rw [skipFrom_object hgap, skipFrom_opened_object hbefore, hinner]
  exact skipFrom_close .object hafter rest

theorem skips_items (hbefore : Blank before) (hafter : Blank after) (ih : Skips (.value j) bs)
    (ihmore : Skips (.items js) more) :
    Skips (.items (j :: js)) (bs ++ before ++ ascii ',' :: (after ++ more)) := by
  intro stack gap rest hgap hrest
  have hfirst := ih (.list :: stack) gap (before ++ ascii ',' :: (after ++ more ++ rest)) hgap
    (follows_gap hbefore (by simp) _)
  have hcomma := skipFrom_comma_list stack hbefore (after ++ more ++ rest)
  have hothers := ihmore stack after rest hafter hrest
  simp only [List.append_assoc, List.cons_append] at hfirst hcomma hothers ⊢
  rw [hfirst, resume, hcomma, hothers]

theorem skips_member {key : String} {name : Bytes} (hname : SpellsString key name)
    (hbefore : Blank before) (hafter : Blank after) (ih : Skips (.value j) bs) :
    Skips (.members [(key, j)]) (name ++ before ++ ascii ':' :: (after ++ bs)) := by
  intro stack gap rest hgap hrest
  have hvalue := ih (.object :: stack) after rest hafter hrest
  cases hname with
  | quoted hbody =>
    have hskip := skipString_spelled hbody (before ++ ascii ':' :: (after ++ bs ++ rest))
    simp only [List.append_assoc, List.cons_append, List.nil_append] at hvalue hskip ⊢
    rw [skipFrom_name, nextByte_gap hgap (by decide)]
    dsimp only
    rw [if_pos rfl, hskip]
    dsimp only [Except.bind]
    rw [skipColon_gap hbefore]
    exact hvalue

theorem skips_members (hbefore : Blank before) (hafter : Blank after) (ih : Skips (.members [m]) bs)
    (ihmore : Skips (.members ms) more) :
    Skips (.members (m :: ms)) (bs ++ before ++ ascii ',' :: (after ++ more)) := by
  intro stack gap rest hgap hrest
  have hfirst := ih stack gap (before ++ ascii ',' :: (after ++ more ++ rest)) hgap
    (follows_gap hbefore (by simp) _)
  have hcomma := skipFrom_comma_object stack hbefore (after ++ more ++ rest)
  have hothers := ihmore stack after rest hafter hrest
  simp only [List.append_assoc, List.cons_append] at hfirst hcomma hothers ⊢
  rw [hfirst, hcomma, hothers]

end Phrases

/-- By induction on the spelling: the stack may be any, so that a value is passed over in the same way
at any depth. -/
theorem skips {p : Phrase} {bs : Bytes} (h : Spells p bs) : Skips p bs := by
  induction h with
  | null => exact skips_scalar .null (by decide) (by decide) fun rest _ => scanWord_word _ rest
  | true => exact skips_scalar .true (by decide) (by decide) fun rest _ => scanWord_word _ rest
  | false => exact skips_scalar .false (by decide) (by decide) fun rest _ => scanWord_word _ rest
  | number h => exact skips_number h
  | string h => exact skips_string h
  | emptyList hinner =>
    intro stack gap rest hgap _
    simp only [List.append_assoc, List.cons_append, List.nil_append]
    rw [skipFrom_list hgap]
    exact skipFrom_close_opened .list hinner rest
  | emptyObject hinner =>
    intro stack gap rest hgap _
    simp only [List.append_assoc, List.cons_append, List.nil_append]
    rw [skipFrom_object hgap]
    exact skipFrom_close_opened .object hinner rest
  | list hbefore hafter h ih => exact skips_list hbefore hafter h ih
  | object hbefore hafter h ih => exact skips_object hbefore hafter h ih
  | oneItem _ ih => exact fun stack => ih (.list :: stack)
  | moreItems _ hbefore hafter _ ih ihmore => exact skips_items hbefore hafter ih ihmore
  | oneMember hname hbefore hafter _ ih => exact skips_member hname hbefore hafter ih
  | moreMembers _ hbefore hafter _ ih ihmore => exact skips_members hbefore hafter ih ihmore

theorem skipValue_spelled {j : Json} {bs gap rest : Bytes} (h : Spells (.value j) bs)
    (hgap : Blank gap) (hrest : Follows rest) : skipValue (gap ++ bs ++ rest) = .ok rest :=
  skips h [] gap rest hgap hrest

end Json

end Prebuilt
