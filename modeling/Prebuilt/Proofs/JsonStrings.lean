import Prebuilt.Proofs.JsonGrammar

/-! Strings of JSON texts, read and passed over. Every spelling of a string is read as that string, and
nothing after it is touched. -/

namespace Prebuilt

namespace Json

theorem hexValue_of_hexDigit {n : Nat} {b : UInt8} (h : HexDigit n b) : hexValue? b = some n := by
  have h0 : (ascii '0').toNat = 48 := rfl
  have h9 : (ascii '9').toNat = 57 := rfl
  have ha : (ascii 'a').toNat = 97 := rfl
  have hf : (ascii 'f').toNat = 102 := rfl
  have hA : (ascii 'A').toNat = 65 := rfl
  have hF : (ascii 'F').toNat = 70 := rfl
  unfold hexValue?
  simp only [UInt8.le_iff_toNat_le, h0, h9, ha, hf, hA, hF, Bool.and_eq_true, decide_eq_true_eq]
  rcases h with ⟨hn, hb⟩ | ⟨hn, hn', hb | hb⟩
  · rw [if_pos (by omega), hb, Nat.add_sub_cancel_left]
  · rw [if_neg (by omega), if_pos (by omega), hb]
    congr 1
    omega
  · rw [if_neg (by omega), if_neg (by omega), if_pos (by omega), hb]
    congr 1
    omega

theorem SpellsUnit.hexUnit {n : Nat} {ds : Bytes} (h : SpellsUnit n ds) :
    ∃ h₁ h₂ h₃ h₄, ds = [h₁, h₂, h₃, h₄] ∧ hexUnit? h₁ h₂ h₃ h₄ = some n := by
  cases h with
  | digits ha hb hc hd hn =>
    refine ⟨_, _, _, _, rfl, ?_⟩
    simp only [hexUnit?, hexValue_of_hexDigit ha, hexValue_of_hexDigit hb, hexValue_of_hexDigit hc,
      hexValue_of_hexDigit hd, Option.bind_eq_bind, Option.bind_some, Option.pure_def, hn]
    congr 1
    omega

theorem letterEscape_of_mem {c l : Char} (h : (c, l) ∈ escapeLetters) :
    letterEscape? (ascii l) = some c ∧ ascii l ≠ ascii 'u' := by
  simp only [escapeLetters, List.mem_cons, Prod.mk.injEq, List.not_mem_nil, or_false] at h
  rcases h with ⟨rfl, rfl⟩ | ⟨rfl, rfl⟩ | ⟨rfl, rfl⟩ | ⟨rfl, rfl⟩ | ⟨rfl, rfl⟩ | ⟨rfl, rfl⟩ |
    ⟨rfl, rfl⟩ | ⟨rfl, rfl⟩ <;> decide

/-! Characters that stand for themselves. -/

theorem leadingChar_utf8EncodeChar (c : Char) (tail : Bytes) :
    leadingChar? (String.utf8EncodeChar c ++ tail) = some c := by
  have hlength : (String.utf8EncodeChar c).length ≤ 4 := by
    rw [String.length_utf8EncodeChar]
    exact c.utf8Size_le_four
  rw [leadingChar?, List.take_append, List.take_of_length_le hlength, List.toByteArray_append]
  exact ByteArray.utf8DecodeChar?_utf8EncodeChar_append

/-- A byte of a character is the character itself, or no ASCII. -/
theorem toNat_of_mem_utf8EncodeChar {c : Char} {b : UInt8} (h : b ∈ String.utf8EncodeChar c) :
    b.toNat = c.toNat ∨ 0x80 ≤ b.toNat := by
  have hv : c.toNat = c.val.toNat := rfl
  unfold String.utf8EncodeChar at h
  dsimp only at h
  split at h
  · simp only [List.mem_singleton] at h
    subst h
    rw [UInt8.toNat_ofNat']
    omega
  · right
    split at h
    · simp only [List.mem_cons, List.not_mem_nil, or_false] at h
      rcases h with rfl | rfl <;> rw [UInt8.toNat_ofNat'] <;> omega
    · split at h
      · simp only [List.mem_cons, List.not_mem_nil, or_false] at h
        rcases h with rfl | rfl | rfl <;> rw [UInt8.toNat_ofNat'] <;> omega
      · simp only [List.mem_cons, List.not_mem_nil, or_false] at h
        rcases h with rfl | rfl | rfl | rfl <;> rw [UInt8.toNat_ofNat'] <;> omega

/-- A byte that neither ends a string nor begins an escape, and is no control character. -/
def PlainByte (b : UInt8) : Prop := b ≠ ascii '"' ∧ b ≠ ascii '\\' ∧ ¬b < 0x20

theorem plainByte_of_mem {c : Char} (hcontrol : 0x20 ≤ c.toNat) (hquote : c ≠ '"')
    (hslash : c ≠ '\\') {b : UInt8} (h : b ∈ String.utf8EncodeChar c) : PlainByte b := by
  have hb := toNat_of_mem_utf8EncodeChar h
  have hq : c.toNat ≠ 34 := fun he => hquote (Char.toNat_inj.mp he)
  have hs : c.toNat ≠ 92 := fun he => hslash (Char.toNat_inj.mp he)
  have hquoteByte : (ascii '"').toNat = 34 := rfl
  have hslashByte : (ascii '\\').toNat = 92 := rfl
  refine ⟨?_, ?_, ?_⟩
  · rintro rfl
    omega
  · rintro rfl
    omega
  · rw [UInt8.lt_iff_toNat_lt]
    change ¬b.toNat < 32
    omega

/-! Reading. -/

theorem scanChars_passed (passed tail : Bytes) :
    scanChars passed.length (passed ++ tail) = scanChars 0 tail := by
  induction passed with
  | nil => rfl
  | cons b bs ih => exact (scanChars.eq_2 _ _ _).trans ih

theorem scanChars_plain {c : Char} (hcontrol : 0x20 ≤ c.toNat) (hquote : c ≠ '"')
    (hslash : c ≠ '\\') (tail : Bytes) :
    scanChars 0 (String.utf8EncodeChar c ++ tail) = (scanChars 0 tail).map (.push c) := by
  have hlead := leadingChar_utf8EncodeChar c tail
  have hlength := String.length_utf8EncodeChar c
  have hplain : ∀ b ∈ String.utf8EncodeChar c, PlainByte b :=
    fun b => plainByte_of_mem hcontrol hquote hslash
  generalize String.utf8EncodeChar c = bytes at hlead hlength hplain
  cases bytes with
  | nil => exact absurd hlength.symm (Nat.ne_of_gt c.utf8Size_pos)
  | cons b bs =>
    obtain ⟨hq, hs, hc⟩ := hplain b List.mem_cons_self
    have hpassed : c.utf8Size - 1 = bs.length := by
      rw [← hlength]
      rfl
    rw [List.cons_append] at hlead ⊢
    rw [scanChars.eq_def]
    dsimp only
    rw [if_neg hq, if_neg hs, if_neg hc, hlead]
    dsimp only
    rw [hpassed, scanChars_passed]

theorem scanChars_letter {c : Char} {e : UInt8} (he : letterEscape? e = some c)
    (hu : e ≠ ascii 'u') (tail : Bytes) :
    scanChars 0 (ascii '\\' :: e :: tail) = (scanChars 0 tail).map (.push c) := by
  have hq : ascii '\\' ≠ ascii '"' := by decide
  rw [scanChars.eq_def]
  dsimp only
  rw [if_neg hq, if_pos rfl, if_neg hu, he]

theorem scanChars_unit {n : Nat} {h₁ h₂ h₃ h₄ : UInt8} (h : hexUnit? h₁ h₂ h₃ h₄ = some n)
    (hlow : isLowSurrogate n = false) (hhigh : isHighSurrogate n = false) (tail : Bytes) :
    scanChars 0 (ascii '\\' :: ascii 'u' :: h₁ :: h₂ :: h₃ :: h₄ :: tail) =
      (scanChars 0 tail).map (.push (Char.ofNat n)) := by
  have hq : ascii '\\' ≠ ascii '"' := by decide
  rw [scanChars.eq_def]
  dsimp only
  rw [if_neg hq, if_pos rfl, if_pos rfl, h]
  dsimp only
  rw [hlow, hhigh, if_neg Bool.false_ne_true, if_neg Bool.false_ne_true]

theorem scanChars_pair {high low : Nat} {h₁ h₂ h₃ h₄ l₁ l₂ l₃ l₄ : UInt8}
    (hh : hexUnit? h₁ h₂ h₃ h₄ = some high) (hl : hexUnit? l₁ l₂ l₃ l₄ = some low)
    (hlow : isLowSurrogate low = true) (hhigh : isHighSurrogate high = true)
    (hdistinct : isLowSurrogate high = false) (tail : Bytes) :
    scanChars 0 (ascii '\\' :: ascii 'u' :: h₁ :: h₂ :: h₃ :: h₄ ::
      ascii '\\' :: ascii 'u' :: l₁ :: l₂ :: l₃ :: l₄ :: tail) =
      (scanChars 0 tail).map (.push (joinSurrogates high low)) := by
  have hq : ascii '\\' ≠ ascii '"' := by decide
  rw [scanChars.eq_def]
  dsimp only
  rw [if_neg hq, if_pos rfl, if_pos rfl, hh]
  dsimp only
  rw [hdistinct, hhigh, if_neg Bool.false_ne_true, if_pos rfl, if_neg (by simp), if_neg (by simp),
    hl]
  dsimp only
  rw [hlow, if_pos rfl]

/-- Every spelling of a character is read as that character. -/
theorem scanChars_spelled {c : Char} {bs : Bytes} (h : SpellsChar c bs) (tail : Bytes) :
    scanChars 0 (bs ++ tail) = (scanChars 0 tail).map (.push c) := by
  cases h with
  | plain hcontrol hquote hslash => exact scanChars_plain hcontrol hquote hslash tail
  | letter h => exact scanChars_letter (letterEscape_of_mem h).1 (letterEscape_of_mem h).2 tail
  | unit h =>
    have hvalid : c.toNat < 0xd800 ∨ 0xdfff < c.toNat ∧ c.toNat < 0x110000 := c.valid
    have hlow : isLowSurrogate c.toNat = false := by
      simp only [isLowSurrogate, Bool.and_eq_false_iff, decide_eq_false_iff_not]
      omega
    have hhigh : isHighSurrogate c.toNat = false := by
      simp only [isHighSurrogate, Bool.and_eq_false_iff, decide_eq_false_iff_not]
      omega
    obtain ⟨_, _, _, _, rfl, hunit⟩ := h.hexUnit
    have hh := scanChars_unit hunit hlow hhigh tail
    rwa [Char.ofNat_toNat] at hh
  | @pair high low _ _ hhigh hlow hc hh hl =>
    have hisLow : isLowSurrogate low = true := by
      simp only [isLowSurrogate, Bool.and_eq_true, decide_eq_true_eq]
      omega
    have hisHigh : isHighSurrogate high = true := by
      simp only [isHighSurrogate, Bool.and_eq_true, decide_eq_true_eq]
      omega
    have hdistinct : isLowSurrogate high = false := by
      simp only [isLowSurrogate, Bool.and_eq_false_iff, decide_eq_false_iff_not]
      omega
    have hjoin : joinSurrogates high low = c := by rw [joinSurrogates, ← hc, Char.ofNat_toNat]
    obtain ⟨_, _, _, _, rfl, hunit⟩ := hh.hexUnit
    obtain ⟨_, _, _, _, rfl, hunit'⟩ := hl.hexUnit
    have hpair := scanChars_pair hunit hunit' hisLow hisHigh hdistinct tail
    rwa [hjoin] at hpair

theorem scanChars_body {cs : List Char} {body : Bytes} (h : SpellsChars cs body) (rest : Bytes) :
    ∃ size, scanChars 0 (body ++ ascii '"' :: rest) = .ok ⟨cs, size, none, rest⟩ := by
  induction h with
  | nil =>
    refine ⟨0, ?_⟩
    rw [List.nil_append, scanChars.eq_def]
    dsimp only
    rw [if_pos rfl]
  | cons hc _ ih =>
    obtain ⟨size, hsize⟩ := ih
    rw [List.append_assoc, scanChars_spelled hc, hsize]
    exact ⟨_, rfl⟩

/-- Every spelling of a string is read as that string. -/
theorem scanString_spelled {s : String} {body : Bytes} (h : SpellsChars s.toList body)
    (rest : Bytes) : scanString (body ++ ascii '"' :: rest) = .ok (s, rest) := by
  obtain ⟨size, hsize⟩ := scanChars_body h rest
  rw [scanString, hsize]
  simp

/-! Passing over. -/

theorem skipString_plain {passed : Bytes} (h : ∀ b ∈ passed, PlainByte b) (tail : Bytes) :
    skipString (passed ++ tail) = skipString tail := by
  induction passed with
  | nil => rfl
  | cons b bs ih =>
    obtain ⟨hq, hs, hc⟩ := h b List.mem_cons_self
    rw [List.cons_append, skipString.eq_def]
    dsimp only
    rw [if_neg hq, if_neg hs, if_neg hc, ih fun x hx => h x (List.mem_cons_of_mem b hx)]

theorem skipString_letter {e : UInt8} (he : (letterEscape? e).isSome) (hu : e ≠ ascii 'u')
    (tail : Bytes) : skipString (ascii '\\' :: e :: tail) = skipString tail := by
  have hq : ascii '\\' ≠ ascii '"' := by decide
  rw [skipString.eq_def]
  dsimp only
  rw [if_neg hq, if_pos rfl, if_neg hu, if_pos he]

theorem skipString_unit {n : Nat} {ds : Bytes} (h : SpellsUnit n ds) (tail : Bytes) :
    skipString (ascii '\\' :: ascii 'u' :: ds ++ tail) = skipString tail := by
  have hq : ascii '\\' ≠ ascii '"' := by decide
  obtain ⟨_, _, _, _, rfl, hunit⟩ := h.hexUnit
  rw [List.cons_append, skipString.eq_def]
  dsimp only [List.cons_append]
  rw [if_neg hq, if_pos rfl, if_pos rfl, hunit]
  rfl

theorem skipString_char {c : Char} {bs : Bytes} (h : SpellsChar c bs) (tail : Bytes) :
    skipString (bs ++ tail) = skipString tail := by
  cases h with
  | plain hcontrol hquote hslash =>
    exact skipString_plain (fun b => plainByte_of_mem hcontrol hquote hslash) tail
  | letter h =>
    obtain ⟨he, hu⟩ := letterEscape_of_mem h
    exact skipString_letter (by simp [he]) hu tail
  | unit h => exact skipString_unit h tail
  | @pair _ _ _ ls _ _ _ hh hl =>
    have hhigh := skipString_unit hh (ascii '\\' :: ascii 'u' :: ls ++ tail)
    simp only [List.append_assoc, List.cons_append] at hhigh ⊢
    exact hhigh.trans (skipString_unit hl tail)

theorem skipString_spelled {cs : List Char} {body : Bytes} (h : SpellsChars cs body)
    (rest : Bytes) : skipString (body ++ ascii '"' :: rest) = .ok rest := by
  induction h with
  | nil =>
    rw [List.nil_append, skipString.eq_def]
    dsimp only
    rw [if_pos rfl]
  | cons hc _ ih => rw [List.append_assoc, skipString_char hc, ih]

end Json

end Prebuilt
