import Prebuilt.Json.Fault

/-! The smallest pieces of JSON texts: blanks, words, strings. Each scanner takes the bytes ahead
and returns what it read together with the bytes left. -/

namespace Prebuilt

def isBlankByte (b : UInt8) : Bool :=
  b == ascii ' ' || b == ascii '\n' || b == ascii '\t' || b == ascii '\r'

def isDigitByte (b : UInt8) : Bool := ascii '0' ≤ b && b ≤ ascii '9'

def skipBlanks (bs : Bytes) : Bytes := bs.dropWhile isBlankByte

theorem skipBlanks_length_le (bs : Bytes) : (skipBlanks bs).length ≤ bs.length :=
  (List.dropWhile_suffix isBlankByte).length_le

def scanWord : List Char → Bytes → Except JsonFault Bytes
  | [], bs => .ok bs
  | _ :: _, [] => faultAt .valueEnds []
  | c :: cs, b :: bs => if b = ascii c then scanWord cs bs else faultAt .badWord bs

theorem scanWord_length_le {word : List Char} {bs rest : Bytes}
    (h : scanWord word bs = .ok rest) : rest.length ≤ bs.length := by
  induction word generalizing bs with
  | nil => simp_all [scanWord]
  | cons c cs ih =>
    cases bs with
    | nil => simp [scanWord, faultAt] at h
    | cons b bs =>
      by_cases hb : b = ascii c
      · simp only [scanWord, hb, if_true] at h
        exact Nat.le_succ_of_le (ih h)
      · simp [scanWord, hb, faultAt] at h

def hexValue? (b : UInt8) : Option Nat :=
  if ascii '0' ≤ b && b ≤ ascii '9' then some (b.toNat - 48)
  else if ascii 'a' ≤ b && b ≤ ascii 'f' then some (b.toNat - 87)
  else if ascii 'A' ≤ b && b ≤ ascii 'F' then some (b.toNat - 55)
  else none

def hexUnit? (a b c d : UInt8) : Option Nat := do
  let a ← hexValue? a
  let b ← hexValue? b
  let c ← hexValue? c
  let d ← hexValue? d
  pure (((a * 16 + b) * 16 + c) * 16 + d)

def isHighSurrogate (n : Nat) : Bool := 0xd800 ≤ n && n ≤ 0xdbff

def isLowSurrogate (n : Nat) : Bool := 0xdc00 ≤ n && n ≤ 0xdfff

def joinSurrogates (high low : Nat) : Char :=
  Char.ofNat (0x10000 + (high - 0xd800) * 0x400 + (low - 0xdc00))

def letterEscape? (b : UInt8) : Option Char :=
  if b = ascii '"' then some '"'
  else if b = ascii '\\' then some '\\'
  else if b = ascii '/' then some '/'
  else if b = ascii 'b' then some '\x08'
  else if b = ascii 'f' then some '\x0c'
  else if b = ascii 'n' then some '\n'
  else if b = ascii 'r' then some '\r'
  else if b = ascii 't' then some '\t'
  else none

/-- The character that the bytes begin with. A character takes four bytes at most. -/
def leadingChar? (bs : Bytes) : Option Char := (bs.take 4).toByteArray.utf8DecodeChar? 0

/-- A string's characters and the bytes after its closing quote. `size` is the number of bytes that
the string stands for, `bad` how many of them are left from the first one that begins no
character. -/
structure ScannedString where
  chars : List Char
  size : Nat
  bad : Option Nat
  rest : Bytes

namespace ScannedString

def push (c : Char) (s : ScannedString) : ScannedString :=
  { s with chars := c :: s.chars, size := s.size + c.utf8Size }

def pushBad (s : ScannedString) : ScannedString :=
  { s with size := s.size + 1, bad := some (s.size + 1) }

end ScannedString

/-- The characters up to the closing quote. The first `passed` bytes belong to a character already
taken. -/
def scanChars : (passed : Nat) → Bytes → Except JsonFault ScannedString
  | _, [] => faultAt .stringEnds []
  | passed + 1, _ :: bs => scanChars passed bs
  | 0, b :: bs =>
    if b = ascii '"' then .ok ⟨[], 0, none, bs⟩
    else if b = ascii '\\' then
      match bs with
      | [] => faultAt .stringEnds []
      | e :: bs =>
        if e = ascii 'u' then
          match bs with
          | h₁ :: h₂ :: h₃ :: h₄ :: bs =>
            match hexUnit? h₁ h₂ h₃ h₄ with
            | none => faultAt .badEscape bs
            | some unit =>
              if isLowSurrogate unit then faultAt .loneSurrogate bs
              else if isHighSurrogate unit then
                match bs with
                | [] => faultAt .stringEnds []
                | [x] =>
                  if x = ascii '\\' then faultAt .stringEnds []
                  else faultAt .halfSurrogatePair []
                | x :: y :: bs =>
                  if x ≠ ascii '\\' then faultAt .halfSurrogatePair (y :: bs)
                  else if y ≠ ascii 'u' then faultAt .halfSurrogatePair bs
                  else
                    match bs with
                    | l₁ :: l₂ :: l₃ :: l₄ :: bs =>
                      match hexUnit? l₁ l₂ l₃ l₄ with
                      | none => faultAt .badEscape bs
                      | some low =>
                        if isLowSurrogate low then
                          (scanChars 0 bs).map
                            (.push (joinSurrogates unit low))
                        else faultAt .loneSurrogate bs
                    | _ => faultAt .stringEnds []
              else (scanChars 0 bs).map (.push (Char.ofNat unit))
          | _ => faultAt .stringEnds []
        else
          match letterEscape? e with
          | some c => (scanChars 0 bs).map (.push c)
          | none => faultAt .badEscape bs
    else if b < 0x20 then faultAt .controlCharacter bs
    else
      match leadingChar? (b :: bs) with
      | some c => (scanChars (c.utf8Size - 1) bs).map (.push c)
      | none => (scanChars 0 bs).map .pushBad

theorem except_map_eq_ok {ε α β : Type} {f : α → β} {x : Except ε α} {y : β} :
    x.map f = .ok y ↔ ∃ v, x = .ok v ∧ f v = y := by
  cases x <;> simp [Except.map]

theorem scanChars_rest_lt {passed : Nat} {bs : Bytes} {s : ScannedString}
    (h : scanChars passed bs = .ok s) : s.rest.length < bs.length := by
  fun_induction scanChars passed bs generalizing s
  all_goals simp_all only [faultAt, except_map_eq_ok, List.length_cons, reduceCtorEq]
  all_goals try obtain ⟨v, hv, rfl⟩ := h
  all_goals grind [ScannedString.push, ScannedString.pushBad]

/-- A string whose opening quote has been read. Bytes that are no text are noticed at its end, and
their place is counted back from there in the bytes that the string stands for. -/
def scanString (bs : Bytes) : Except JsonFault (String × Bytes) :=
  match scanChars 0 bs with
  | .error f => .error f
  | .ok s =>
    match s.bad with
    | some left => .error ⟨.badCodePoint, s.rest.length + left⟩
    | none => .ok (String.ofList s.chars, s.rest)

theorem scanString_rest_lt {bs rest : Bytes} {text : String}
    (h : scanString bs = .ok (text, rest)) : rest.length < bs.length := by
  unfold scanString at h
  split at h
  · cases h
  · next s hs =>
    split at h
    · cases h
    · cases h
      exact scanChars_rest_lt hs

/-- Pass over a string whose opening quote has been read, without asking what its escapes and bytes
stand for. -/
def skipString : Bytes → Except JsonFault Bytes
  | [] => faultAt .stringEnds []
  | b :: bs =>
    if b = ascii '"' then .ok bs
    else if b = ascii '\\' then
      match bs with
      | [] => faultAt .stringEnds []
      | e :: bs =>
        if e = ascii 'u' then
          match bs with
          | h₁ :: h₂ :: h₃ :: h₄ :: bs =>
            if (hexUnit? h₁ h₂ h₃ h₄).isSome then skipString bs else faultAt .badEscape bs
          | _ => faultAt .stringEnds []
        else if (letterEscape? e).isSome then skipString bs
        else faultAt .badEscape bs
    else if b < 0x20 then faultAt .controlCharacter (b :: bs)
    else skipString bs

theorem skipString_lt {bs rest : Bytes} (h : skipString bs = .ok rest) :
    rest.length < bs.length := by
  fun_induction skipString bs generalizing rest
  all_goals simp_all only [faultAt, List.length_cons, reduceCtorEq, Except.ok.injEq]
  all_goals grind

end Prebuilt
