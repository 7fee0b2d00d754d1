/-! JSON values as far as catalogs are written with them, and their text on several lines: one
item a line, two spaces further in than the brackets around it. -/

namespace Prebuilt

inductive JsonValue where
  | null
  | string (s : String)
  | array (items : List JsonValue)
  | object (members : List (String × JsonValue))

namespace JsonValue

def hexDigit (n : Nat) : Char := (Nat.toDigits 16 (n % 16)).headD '0'

/-- Marks, backslashes and controls below the space are escaped, five of them by a letter. -/
def escapeChar (c : Char) : List Char :=
  if c = '"' ∨ c = '\\' then ['\\', c]
  else if c = '\x08' then ['\\', 'b']
  else if c = '\t' then ['\\', 't']
  else if c = '\n' then ['\\', 'n']
  else if c = '\x0c' then ['\\', 'f']
  else if c = '\r' then ['\\', 'r']
  else if c.toNat < 0x20 then ['\\', 'u', '0', '0', hexDigit (c.toNat / 16), hexDigit c.toNat]
  else [c]

def stringText (s : String) : List Char := '"' :: s.toList.flatMap escapeChar ++ ['"']

def newline (depth : Nat) : List Char := '\n' :: List.replicate (2 * depth) ' '

mutual

def pretty (depth : Nat) : JsonValue → List Char
  | null => ['n', 'u', 'l', 'l']
  | string s => stringText s
  | array [] => ['[', ']']
  | array (item :: items) =>
    '[' :: newline (depth + 1) ++ pretty (depth + 1) item ++ prettyItems (depth + 1) items ++
      newline depth ++ [']']
  | object [] => ['\x7b', '\x7d']
  | object ((name, value) :: members) =>
    '\x7b' :: newline (depth + 1) ++ stringText name ++ [':', ' '] ++ pretty (depth + 1) value ++
      prettyMembers (depth + 1) members ++ newline depth ++ ['\x7d']

/-- The items after the first one, each led in by a comma. -/
def prettyItems (depth : Nat) : List JsonValue → List Char
  | [] => []
  | item :: items => ',' :: newline depth ++ pretty depth item ++ prettyItems depth items

/-- The members after the first one, each led in by a comma. -/
def prettyMembers (depth : Nat) : List (String × JsonValue) → List Char
  | [] => []
  | (name, value) :: members =>
    ',' :: newline depth ++ stringText name ++ [':', ' '] ++ pretty depth value ++
      prettyMembers depth members

end

def text (v : JsonValue) : String := String.ofList (v.pretty 0)

end JsonValue

end Prebuilt
