import Prebuilt.Json.NumberValue
import Prebuilt.Json.Skip

/-! The part of a package's manifest that matters here: the name it gives itself and the artifact
it points at. The manifest is an object that may hold anything else, or a list of the two. -/

namespace Prebuilt

structure Manifest where
  name : Option String
  main : Option String
  deriving DecidableEq

namespace Manifest

def expected : String := "struct PackageManifest"

/-- A value of the wrong type, which is read as far as its kind and worth need it. -/
def wrongType {α : Type} (wanted : String) (bs : Bytes) : Except JsonFault α :=
  match nextByte bs with
  | none => faultOn .valueEnds []
  | some (b, rest) =>
    let word (got : String) (tail : List Char) : Except JsonFault α :=
      match scanWord tail rest with
      | .error f => .error f
      | .ok after => faultAt (.wrongType got wanted) after
    let number (negative : Bool) (digits : Bytes) : Except JsonFault α :=
      match readNumber negative digits with
      | .error f => .error f
      | .ok (n, after) => faultAt (.wrongType n.describe wanted) after
    if b = ascii 'n' then word "null" ['u', 'l', 'l']
    else if b = ascii 't' then word "boolean `true`" ['r', 'u', 'e']
    else if b = ascii 'f' then word "boolean `false`" ['a', 'l', 's', 'e']
    else if b = ascii '-' then number true rest
    else if isDigitByte b then number false (b :: rest)
    else if b = ascii '"' then
      match scanString rest with
      | .error f => .error f
      | .ok (s, after) => faultAt (.wrongType ("string " ++ quote s) wanted) after
    else if b = ascii '[' then faultAt (.wrongType "sequence" wanted) (b :: rest)
    else if b = ascii '\x7b' then faultAt (.wrongType "map" wanted) (b :: rest)
    else faultOn .noValue (b :: rest)

def readEntry (bs : Bytes) : Except JsonFault (Option String × Bytes) :=
  match nextByte bs with
  | none => faultOn .valueEnds []
  | some (b, rest) =>
    if b = ascii 'n' then (scanWord ['u', 'l', 'l'] rest).map fun after => (none, after)
    else if b = ascii '"' then (scanString rest).map fun (s, after) => (some s, after)
    else wrongType "a string" bs

theorem readEntry_lt {bs rest : Bytes} {entry : Option String}
    (h : readEntry bs = .ok (entry, rest)) : rest.length < bs.length := by
  have hw (wanted : String) (cs : Bytes) (x : Option String × Bytes) :
      wrongType wanted cs ≠ .ok x := by
    unfold wrongType
    grind [faultAt, faultOn]
  have hn := @nextByte_lt
  have hl := @scanWord_length_le
  have hs := @scanString_rest_lt
  unfold readEntry at h
  grind [faultOn, except_map_eq_ok]

/-- The two entries read so far; each may be read once. -/
structure Entries where
  name : Option (Option String)
  main : Option (Option String)

def Entries.finish (e : Entries) : Manifest := ⟨e.name.join, e.main.join⟩

/-- What is left when an object is given up: its end is still looked for. -/
def restAfterObject (bs : Bytes) : Bytes :=
  match nextByte bs with
  | none => []
  | some (b, rest) => if b = ascii '\x7d' then rest else b :: rest

def restAfterList (bs : Bytes) : Bytes :=
  match nextByte bs with
  | none => []
  | some (b, rest) =>
    if b = ascii ']' then rest
    else if b = ascii ',' then skipBlanks rest
    else b :: rest

/-- The name of the next member, or nothing at the end of the object. A comma comes before every
member but the first. -/
def readMemberName (first : Bool) (bs : Bytes) : Except JsonFault (Option String × Bytes) :=
  match nextByte bs with
  | none => faultOn .objectEnds []
  | some (b, rest) =>
    if b = ascii '\x7d' then .ok (none, rest)
    else if first then
      if b = ascii '"' then (scanString rest).map fun (s, after) => (some s, after)
      else faultOn .keyNoString (b :: rest)
    else if b = ascii ',' then
      match nextByte rest with
      | none => faultOn .valueEnds []
      | some (c, more) =>
        if c = ascii '"' then (scanString more).map fun (s, after) => (some s, after)
        else if c = ascii '\x7d' then faultOn .trailingComma (c :: more)
        else faultOn .keyNoString (c :: more)
    else faultOn .noCommaOrObjectEnd (b :: rest)

theorem readMemberName_lt {first : Bool} {bs rest : Bytes} {name : Option String}
    (h : readMemberName first bs = .ok (name, rest)) : rest.length < bs.length := by
  have hn := @nextByte_lt
  have hs := @scanString_rest_lt
  unfold readMemberName at h
  grind [faultOn, except_map_eq_ok]

def readMembers (first : Bool) (entries : Entries) (bs : Bytes) :
    Except JsonFault (Manifest × Bytes) :=
  match _hn : readMemberName first bs with
  | .error f => .error f
  | .ok (none, rest) => .ok (entries.finish, rest)
  | .ok (some member, afterName) =>
    if (member = "name" && entries.name.isSome) || (member = "main" && entries.main.isSome) then
      faultAt (.duplicateField member) (restAfterObject afterName)
    else
      match _hc : skipColon afterName with
      | .error f => .error f
      | .ok afterColon =>
        if member = "name" || member = "main" then
          match _he : readEntry afterColon with
          | .error f => .error f
          | .ok (entry, rest) =>
            let entries :=
              if member = "name" then { entries with name := some entry }
              else { entries with main := some entry }
            readMembers false entries rest
        else
          match _hv : skipValue afterColon with
          | .error f => .error f
          | .ok rest => readMembers false entries rest
termination_by bs.length
decreasing_by
  all_goals
    have := readMemberName_lt _hn
    have := skipColon_lt _hc
  · have := readEntry_lt _he
    omega
  · have := skipValue_lt _hv
    omega

/-- The entry at a given place of a list of two. A comma comes before the second one. -/
def readItem (place : Nat) (bs : Bytes) : Except JsonFault (Option String × Bytes) :=
  match nextByte bs with
  | none => faultOn .listEnds []
  | some (b, rest) =>
    if b = ascii ']' then
      faultAt (.wrongLength place (expected ++ " with 2 elements")) (restAfterList bs)
    else if place = 0 then readEntry bs
    else if b = ascii ',' then
      match nextByte rest with
      | none => faultOn .valueEnds []
      | some (c, more) =>
        if c = ascii ']' then faultOn .trailingComma (c :: more) else readEntry rest
    else faultOn .noCommaOrListEnd (b :: rest)

def readListEnd (bs : Bytes) : Except JsonFault Bytes :=
  match nextByte bs with
  | none => faultOn .listEnds []
  | some (b, rest) =>
    if b = ascii ']' then .ok rest
    else if b = ascii ',' then
      match nextByte rest with
      | none => faultOn .trailingCharacters []
      | some (c, more) =>
        faultOn (if c = ascii ']' then .trailingComma else .trailingCharacters) (c :: more)
    else faultOn .trailingCharacters (b :: rest)

def readList (bs : Bytes) : Except JsonFault (Manifest × Bytes) := do
  let (name, rest) ← readItem 0 bs
  let (main, rest) ← readItem 1 rest
  let rest ← readListEnd rest
  pure (⟨name, main⟩, rest)

def readValue (bs : Bytes) : Except JsonFault (Manifest × Bytes) :=
  match nextByte bs with
  | none => faultOn .valueEnds []
  | some (b, rest) =>
    if b = ascii '[' then readList rest
    else if b = ascii '\x7b' then readMembers true ⟨none, none⟩ rest
    else wrongType expected bs

/-- Read a whole text: one value with nothing but blanks around it. -/
def read (text : Bytes) : Except JsonFault Manifest :=
  match readValue text with
  | .error f => .error f
  | .ok (manifest, rest) =>
    match skipBlanks rest with
    | [] => .ok manifest
    | more => faultOn .trailingCharacters more

end Manifest

end Prebuilt
