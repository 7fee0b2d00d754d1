import Prebuilt.Json.Scan

/-! The grammar of JSON texts, with every spelling that a value has: blanks where they may be, any
escapes in its strings, numbers of any length. -/

namespace Prebuilt

/-- A number is kept as it is written, and the members of an object in their order. -/
inductive Json where
  | null
  | bool (b : Bool)
  | number (digits : Bytes)
  | string (s : String)
  | list (items : List Json)
  | object (members : List (String × Json))

namespace Json

def isBlank (b : UInt8) : Prop := b = 0x20 ∨ b = 0x0a ∨ b = 0x09 ∨ b = 0x0d

instance : DecidablePred isBlank := fun _ => inferInstanceAs (Decidable (_ ∨ _))

def Blank (bs : Bytes) : Prop := ∀ b ∈ bs, isBlank b

instance : DecidablePred Blank := fun bs => List.decidableBAll isBlank bs

def word (s : String) : Bytes := s.toList.map ascii

/-! Strings. -/

def HexDigit (n : Nat) (b : UInt8) : Prop :=
  (n < 10 ∧ b.toNat = 0x30 + n) ∨
    (10 ≤ n ∧ n < 16 ∧ (b.toNat = 0x61 + (n - 10) ∨ b.toNat = 0x41 + (n - 10)))

/-- A number of four hexadecimal digits, in small or capital letters. -/
inductive SpellsUnit (n : Nat) : Bytes → Prop where
  | digits {a b c d : Nat} {da db dc dd : UInt8} (ha : HexDigit a da) (hb : HexDigit b db)
      (hc : HexDigit c dc) (hd : HexDigit d dd) (hn : n = a * 0x1000 + b * 0x100 + c * 0x10 + d) :
      SpellsUnit n [da, db, dc, dd]

/-- The characters that have an escape of one letter. -/
def escapeLetters : List (Char × Char) :=
  [('"', '"'), ('\\', '\\'), ('/', '/'), ('\x08', 'b'), ('\x0c', 'f'), ('\n', 'n'), ('\r', 'r'),
    ('\t', 't')]

/-- A character as itself, by a letter, by its code or, above the first plane, by a pair of
surrogates. -/
inductive SpellsChar (c : Char) : Bytes → Prop where
  | plain (hcontrol : 0x20 ≤ c.toNat) (hquote : c ≠ '"') (hslash : c ≠ '\\') :
      SpellsChar c (String.utf8EncodeChar c)
  | letter {l : Char} (h : (c, l) ∈ escapeLetters) : SpellsChar c [ascii '\\', ascii l]
  | unit {ds : Bytes} (h : SpellsUnit c.toNat ds) : SpellsChar c (ascii '\\' :: ascii 'u' :: ds)
  | pair {high low : Nat} {hs ls : Bytes} (hhigh : 0xd800 ≤ high ∧ high < 0xdc00)
      (hlow : 0xdc00 ≤ low ∧ low < 0xe000)
      (hc : c.toNat = 0x10000 + (high - 0xd800) * 0x400 + (low - 0xdc00))
      (hh : SpellsUnit high hs) (hl : SpellsUnit low ls) :
      SpellsChar c (ascii '\\' :: ascii 'u' :: (hs ++ ascii '\\' :: ascii 'u' :: ls))

inductive SpellsChars : List Char → Bytes → Prop where
  | nil : SpellsChars [] []
  | cons {c : Char} {cs : List Char} {bs more : Bytes} (hc : SpellsChar c bs)
      (hcs : SpellsChars cs more) : SpellsChars (c :: cs) (bs ++ more)

inductive SpellsString (s : String) : Bytes → Prop where
  | quoted {body : Bytes} (h : SpellsChars s.toList body) :
      SpellsString s (ascii '"' :: (body ++ [ascii '"']))

/-! Numbers. -/

def Digit (b : UInt8) : Prop := 0x30 ≤ b.toNat ∧ b.toNat ≤ 0x39

instance : DecidablePred Digit := fun _ => inferInstanceAs (Decidable (_ ∧ _))

def Digits (bs : Bytes) : Prop := bs ≠ [] ∧ ∀ b ∈ bs, Digit b

/-- A leading zero stands alone. -/
inductive Integer : Bytes → Prop where
  | zero : Integer [ascii '0']
  | digits {d : UInt8} {ds : Bytes} (hd : Digit d) (hzero : d ≠ ascii '0')
      (hds : ∀ b ∈ ds, Digit b) : Integer (d :: ds)

inductive Fraction : Bytes → Prop where
  | none : Fraction []
  | some {ds : Bytes} (h : Digits ds) : Fraction (ascii '.' :: ds)

inductive Exponent : Bytes → Prop where
  | none : Exponent []
  | some {mark : UInt8} {sign ds : Bytes} (hmark : mark = ascii 'e' ∨ mark = ascii 'E')
      (hsign : sign = [] ∨ sign = [ascii '+'] ∨ sign = [ascii '-']) (hds : Digits ds) :
      Exponent (mark :: (sign ++ ds))

inductive Unsigned : Bytes → Prop where
  | parts {integer fraction exponent : Bytes} (hi : Integer integer) (hf : Fraction fraction)
      (he : Exponent exponent) : Unsigned (integer ++ fraction ++ exponent)

inductive Number : Bytes → Prop where
  | plain {bs : Bytes} (h : Unsigned bs) : Number bs
  | minus {bs : Bytes} (h : Unsigned bs) : Number (ascii '-' :: bs)

/-! Values. -/

/-- A value, or what stands between brackets with commas: values, or members. -/
inductive Phrase where
  | value (j : Json)
  | items (js : List Json)
  | members (ms : List (String × Json))

inductive Spells : Phrase → Bytes → Prop where
  | null : Spells (.value .null) (word "null")
  | true : Spells (.value (.bool true)) (word "true")
  | false : Spells (.value (.bool false)) (word "false")
  | number {bs : Bytes} (h : Number bs) : Spells (.value (.number bs)) bs
  | string {s : String} {bs : Bytes} (h : SpellsString s bs) : Spells (.value (.string s)) bs
  | emptyList {gap : Bytes} (hgap : Blank gap) :
      Spells (.value (.list [])) (ascii '[' :: (gap ++ [ascii ']']))
  | list {js : List Json} {before bs after : Bytes} (hbefore : Blank before) (hafter : Blank after)
      (h : Spells (.items js) bs) :
      Spells (.value (.list js)) (ascii '[' :: (before ++ bs ++ after ++ [ascii ']']))
  | emptyObject {gap : Bytes} (hgap : Blank gap) :
      Spells (.value (.object [])) (ascii '\x7b' :: (gap ++ [ascii '\x7d']))
  | object {ms : List (String × Json)} {before bs after : Bytes} (hbefore : Blank before)
      (hafter : Blank after) (h : Spells (.members ms) bs) :
      Spells (.value (.object ms)) (ascii '\x7b' :: (before ++ bs ++ after ++ [ascii '\x7d']))
  | oneItem {j : Json} {bs : Bytes} (h : Spells (.value j) bs) : Spells (.items [j]) bs
  | moreItems {j : Json} {js : List Json} {bs before after more : Bytes}
      (h : Spells (.value j) bs) (hbefore : Blank before) (hafter : Blank after)
      (hmore : Spells (.items js) more) :
      Spells (.items (j :: js)) (bs ++ before ++ ascii ',' :: (after ++ more))
  | oneMember {key : String} {j : Json} {name before after bs : Bytes} (hname : SpellsString key name)
      (hbefore : Blank before) (hafter : Blank after) (h : Spells (.value j) bs) :
      Spells (.members [(key, j)]) (name ++ before ++ ascii ':' :: (after ++ bs))
  | moreMembers {m : String × Json} {ms : List (String × Json)} {bs before after more : Bytes}
      (h : Spells (.members [m]) bs) (hbefore : Blank before) (hafter : Blank after)
      (hmore : Spells (.members ms) more) :
      Spells (.members (m :: ms)) (bs ++ before ++ ascii ',' :: (after ++ more))

/-! The first of several. -/

theorem split_items {j : Json} {js : List Json} {bs : Bytes} (h : Spells (.items (j :: js)) bs) :
    ∃ first, Spells (.value j) first ∧ ((js = [] ∧ bs = first) ∨
      ∃ before after more, Blank before ∧ Blank after ∧ Spells (.items js) more ∧
        bs = first ++ before ++ ascii ',' :: (after ++ more)) := by
  cases h with
  | oneItem h => exact ⟨_, h, .inl ⟨rfl, rfl⟩⟩
  | moreItems h hbefore hafter hmore =>
    exact ⟨_, h, .inr ⟨_, _, _, hbefore, hafter, hmore, rfl⟩⟩

/-- A member as it is written. -/
inductive SpellsMember (key : String) (j : Json) : Bytes → Prop where
  | colon {body before after bs : Bytes} (hkey : SpellsChars key.toList body) (hbefore : Blank before)
      (hafter : Blank after) (h : Spells (.value j) bs) : SpellsMember key j
        (ascii '"' :: (body ++ ascii '"' :: (before ++ ascii ':' :: (after ++ bs))))

theorem spellsMember_of_spells {key : String} {j : Json} {bs : Bytes}
    (h : Spells (.members [(key, j)]) bs) : SpellsMember key j bs := by
  cases h with
  | oneMember hname hbefore hafter h =>
    cases hname with
    | quoted hbody =>
      have hh := SpellsMember.colon hbody hbefore hafter h
      simpa only [List.append_assoc, List.cons_append, List.nil_append] using hh
  | moreMembers _ _ _ hmore => nomatch hmore

theorem split_members {key : String} {j : Json} {ms : List (String × Json)} {bs : Bytes}
    (h : Spells (.members ((key, j) :: ms)) bs) :
    ∃ first, SpellsMember key j first ∧ ((ms = [] ∧ bs = first) ∨
      ∃ before after more, Blank before ∧ Blank after ∧ Spells (.members ms) more ∧
        bs = first ++ before ++ ascii ',' :: (after ++ more)) := by
  cases h with
  | oneMember hname hbefore hafter h =>
    exact ⟨_, spellsMember_of_spells (.oneMember hname hbefore hafter h), .inl ⟨rfl, rfl⟩⟩
  | moreMembers h hbefore hafter hmore =>
    exact ⟨_, spellsMember_of_spells h, .inr ⟨_, _, _, hbefore, hafter, hmore, rfl⟩⟩

end Json

end Prebuilt
