import Prebuilt.Text.Concealed

/-! Text in quotation marks, on one line: marks, backslashes and every concealed character are
written as escapes, all else as it is. -/

namespace Prebuilt

/-- The code of a character in lower-case hexadecimal, without leading zeros. -/
def codeEscape (c : Char) : List Char :=
  ['\\', 'u', '\x7b'] ++ Nat.toDigits 16 c.toNat ++ ['\x7d']

/-- The short escapes come first, then the code of a concealed character. -/
def quoteChar (concealed : Char → Bool) (c : Char) : List Char :=
  if c = '\x00' then ['\\', '0']
  else if c = '\t' then ['\\', 't']
  else if c = '\r' then ['\\', 'r']
  else if c = '\n' then ['\\', 'n']
  else if c = '\\' ∨ c = '"' then ['\\', c]
  else if concealed c then codeEscape c
  else [c]

def quoteChars (concealed : Char → Bool) (cs : List Char) : List Char :=
  '"' :: cs.flatMap (quoteChar concealed) ++ ['"']

def quote (s : String) : String := String.ofList (quoteChars isConcealed s.toList)

end Prebuilt
