import Mathlib.Tactic.SplitIfs
import Prebuilt.Text.Quoted

/-! Texts in quotation marks, read back. Whichever characters are shown by their codes, as long as the
control characters are among them, a quoted text holds no control character, and one reader gets the text
back. It stops at the closing mark, so that more may follow. -/

namespace Prebuilt

def IsControl (c : Char) : Prop := c.toNat < 0x20 ∨ 0x7f ≤ c.toNat ∧ c.toNat ≤ 0x9f

instance : DecidablePred IsControl := fun c =>
  inferInstanceAs (Decidable (c.toNat < 0x20 ∨ 0x7f ≤ c.toNat ∧ c.toNat ≤ 0x9f))

/-- A way to quote: which characters are shown by their codes, the control characters among them. -/
structure Quotation where
  concealed : Char → Bool
  concealed_of_control : ∀ {c : Char}, IsControl c → concealed c = true

namespace Quotation

def usual : Quotation := ⟨isConcealed, isConcealed_of_control⟩

def quote (q : Quotation) (s : String) : String := String.ofList (quoteChars q.concealed s.toList)

end Quotation

section Writing

/-- Characters with an escape of their own, and what stands behind the backslash. -/
def shortEscapes : List (Char × Char) :=
  [('\x00', '0'), ('\t', 't'), ('\r', 'r'), ('\n', 'n'), ('\\', '\\'), ('"', '"')]

/-- What a character may be written as between quotation marks. -/
inductive Shows (c : Char) : List Char → Prop where
  | short {letter : Char} (h : (c, letter) ∈ shortEscapes) : Shows c ['\\', letter]
  | code : Shows c (codeEscape c)
  | plain (hcontrol : ¬IsControl c) (hslash : c ≠ '\\') (hmark : c ≠ '"') : Shows c [c]

theorem shows_quoteChar (q : Quotation) (c : Char) : Shows c (quoteChar q.concealed c) := by
  unfold quoteChar
  split_ifs with hnul htab hreturn hline hmark hconcealed
  · exact .short (by simp [shortEscapes, hnul])
  · exact .short (by simp [shortEscapes, htab])
  · exact .short (by simp [shortEscapes, hreturn])
  · exact .short (by simp [shortEscapes, hline])
  · rcases hmark with rfl | rfl
    · exact .short (by simp [shortEscapes])
    · exact .short (by simp [shortEscapes])
  · exact .code
  · rw [not_or] at hmark
    exact .plain (fun h => hconcealed (q.concealed_of_control h)) hmark.1 hmark.2

/-- The digits of a number are those of its sixteenth part and one more behind them. -/
theorem hexDigits_induction {motive : Nat → List Char → Prop}
    (single : ∀ d < 16, motive d [Nat.digitChar d])
    (snoc : ∀ n ds, motive n ds → ∀ d < 16, motive (16 * n + d) (ds ++ [Nat.digitChar d])) (n : Nat) :
    motive n (Nat.toDigits 16 n) := by
  induction n using Nat.strongRecOn with
  | _ n ih =>
    rw [Nat.toDigits_eq_if (by decide)]
    by_cases hn : n < 16
    · rw [if_pos hn]
      exact single n hn
    · have hh := snoc (n / 16) _ (ih (n / 16) (by omega)) (n % 16) (Nat.mod_lt n (by decide))
      rw [Nat.div_add_mod] at hh
      rwa [if_neg hn]

theorem exists_digit_of_mem {n : Nat} {c : Char} (h : c ∈ Nat.toDigits 16 n) :
    ∃ d < 16, c = Nat.digitChar d := by
  induction n using hexDigits_induction with
  | single d hd => exact ⟨d, hd, List.mem_singleton.mp h⟩
  | snoc n ds ih d hd =>
    rw [List.mem_append, List.mem_singleton] at h
    rcases h with h | h
    · exact ih h
    · exact ⟨d, hd, h⟩

theorem not_control_of_mem_codeEscape {c d : Char} (h : d ∈ codeEscape c) : ¬IsControl d := by
  simp only [codeEscape, List.mem_append, List.mem_cons, List.not_mem_nil, or_false] at h
  rcases h with ((rfl | rfl | rfl) | h) | rfl
  · decide
  · decide
  · decide
  · have hdigits : ∀ n < 16, ¬IsControl (Nat.digitChar n) := by decide
    obtain ⟨n, hn, rfl⟩ := exists_digit_of_mem h
    exact hdigits n hn
  · decide

theorem Shows.not_control {c d : Char} {cs : List Char} (h : Shows c cs) (hd : d ∈ cs) :
    ¬IsControl d := by
  cases h with
  | short h =>
    have hletters : ∀ e ∈ shortEscapes, ¬IsControl e.2 := by decide
    simp only [List.mem_cons, List.not_mem_nil, or_false] at hd
    rcases hd with rfl | rfl
    · decide
    · exact hletters _ h
  | code => exact not_control_of_mem_codeEscape hd
  | plain hcontrol =>
    rw [List.mem_singleton] at hd
    rwa [hd]

theorem Quotation.not_control_of_mem_quote (q : Quotation) {s : String} {c : Char}
    (h : c ∈ (q.quote s).toList) : ¬IsControl c := by
  simp only [quote, String.toList_ofList, quoteChars, List.cons_append, List.mem_cons,
    List.mem_append, List.mem_flatMap, List.not_mem_nil, or_false] at h
  rcases h with rfl | ⟨d, -, hc⟩ | rfl
  · decide
  · exact (shows_quoteChar q d).not_control hc
  · decide

end Writing

section Reading

/-- How far a reader is into a character: not at all, behind a backslash, behind its `u`, or behind
the brace and the digits of `value`. -/
inductive Stage where
  | between
  | escape
  | code
  | digits (value : Nat)

def shortEscape? (letter : Char) : Option Char :=
  (shortEscapes.find? fun e => e.2 = letter).map (·.1)

/-- The digit that is written so. -/
def digitValue? (c : Char) : Option Nat := (List.range 16).find? fun d => Nat.digitChar d = c

def consRead (c : Char) (read : List Char × List Char) : List Char × List Char :=
  (c :: read.1, read.2)

/-- The characters up to the closing mark, and what stands behind it. -/
def unquote : Stage → List Char → Option (List Char × List Char)
  | _, [] => none
  | .between, c :: cs =>
    if c = '"' then some ([], cs)
    else if c = '\\' then unquote .escape cs
    else (unquote .between cs).map (consRead c)
  | .escape, c :: cs =>
    if c = 'u' then unquote .code cs
    else (shortEscape? c).bind fun meant => (unquote .between cs).map (consRead meant)
  | .code, c :: cs => if c = '\x7b' then unquote (.digits 0) cs else none
  | .digits value, c :: cs =>
    if c = '\x7d' then (unquote .between cs).map (consRead (Char.ofNat value))
    else (digitValue? c).bind fun d => unquote (.digits (16 * value + d)) cs

/-- A quoted text, and what stands behind it. -/
def readQuoted? : List Char → Option (String × List Char)
  | [] => none
  | c :: cs =>
    if c = '"' then (unquote .between cs).map fun read => (String.ofList read.1, read.2) else none

theorem unquote_digit {d : Nat} (h : d < 16) (value : Nat) (cs : List Char) :
    unquote (.digits value) (Nat.digitChar d :: cs) = unquote (.digits (16 * value + d)) cs := by
  have hall : ∀ d < 16, Nat.digitChar d ≠ '\x7d' ∧ digitValue? (Nat.digitChar d) = some d := by
    decide
  obtain ⟨hclosing, hvalue⟩ := hall d h
  rw [unquote, if_neg hclosing, hvalue, Option.bind_some]

/-- Digits are read as the number they are written for. -/
theorem unquote_digits (n : Nat) (cs : List Char) :
    unquote (.digits 0) (Nat.toDigits 16 n ++ cs) = unquote (.digits n) cs := by
  induction n using hexDigits_induction generalizing cs with
  | single d hd => rw [List.singleton_append, unquote_digit hd, Nat.mul_zero, Nat.zero_add]
  | snoc n ds ih d hd => rw [List.append_assoc, List.singleton_append, ih, unquote_digit hd]

theorem unquote_codeEscape (c : Char) (cs : List Char) :
    unquote .between (codeEscape c ++ cs) = (unquote .between cs).map (consRead c) := by
  have hstart : unquote .between (codeEscape c ++ cs) =
      unquote (.digits 0) (Nat.toDigits 16 c.toNat ++ '\x7d' :: cs) := by
    simp [codeEscape, unquote]
  rw [hstart, unquote_digits, unquote, if_pos rfl, Char.ofNat_toNat]

/-- Whatever a character is written as, it is read as that character. -/
theorem unquote_shows {c : Char} {cs : List Char} (h : Shows c cs) (rest : List Char) :
    unquote .between (cs ++ rest) = (unquote .between rest).map (consRead c) := by
  cases h with
  | @short letter h =>
    have hall : ∀ e ∈ shortEscapes, e.2 ≠ 'u' ∧ shortEscape? e.2 = some e.1 := by decide
    obtain ⟨hcode, hmeant⟩ := hall _ h
    have hescape : unquote .between ('\\' :: letter :: rest) = unquote .escape (letter :: rest) := rfl
    rw [List.cons_append, List.singleton_append, hescape, unquote, if_neg hcode, hmeant,
      Option.bind_some]
  | code => exact unquote_codeEscape c rest
  | plain _ hslash hmark =>
    rw [List.singleton_append, unquote, if_neg hmark, if_neg hslash]

namespace Quotation

variable (q : Quotation)

theorem unquote_body (cs rest : List Char) :
    unquote .between (cs.flatMap (quoteChar q.concealed) ++ '"' :: rest) = some (cs, rest) := by
  induction cs with
  | nil => rw [List.flatMap_nil, List.nil_append, unquote, if_pos rfl]
  | cons c cs ih =>
    rw [List.flatMap_cons, List.append_assoc, unquote_shows (shows_quoteChar q c), ih]
    rfl

/-- Every way to quote is read alike. -/
theorem readQuoted_quote (s : String) (rest : List Char) :
    readQuoted? ((q.quote s).toList ++ rest) = some (s, rest) := by
  have hchars : (q.quote s).toList ++ rest =
      '"' :: (s.toList.flatMap (quoteChar q.concealed) ++ '"' :: rest) := by
    simp [quote, quoteChars]
  rw [hchars, readQuoted?, if_pos rfl, unquote_body, Option.map_some, String.ofList_toList]

end Quotation

end Reading

end Prebuilt
