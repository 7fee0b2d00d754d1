import Prebuilt.Text.Quoted

/-! What can be wrong with a JSON text and where. A fault keeps the number of bytes left when it
was noticed, from which its line and column follow once the whole text is at hand. -/

namespace Prebuilt

abbrev Bytes := List UInt8

def ascii (c : Char) : UInt8 := UInt8.ofNat c.toNat

inductive JsonCause where
  | listEnds
  | objectEnds
  | stringEnds
  | valueEnds
  | noColon
  | noCommaOrListEnd
  | noCommaOrObjectEnd
  | badWord
  | noValue
  | badEscape
  | badNumber
  | numberTooLarge
  | badCodePoint
  | controlCharacter
  | keyNoString
  | loneSurrogate
  | trailingComma
  | trailingCharacters
  | halfSurrogatePair
  | wrongType (got expected : String)
  | wrongLength (length : Nat) (expected : String)
  | duplicateField (name : String)

def JsonCause.text : JsonCause → String
  | listEnds => "EOF while parsing a list"
  | objectEnds => "EOF while parsing an object"
  | stringEnds => "EOF while parsing a string"
  | valueEnds => "EOF while parsing a value"
  | noColon => "expected `:`"
  | noCommaOrListEnd => "expected `,` or `]`"
  | noCommaOrObjectEnd => "expected `,` or `\x7d`"
  | badWord => "expected ident"
  | noValue => "expected value"
  | badEscape => "invalid escape"
  | badNumber => "invalid number"
  | numberTooLarge => "number out of range"
  | badCodePoint => "invalid unicode code point"
  | controlCharacter =>
    "control character (\\u0000-\\u001F) found while parsing a string"
  | keyNoString => "key must be a string"
  | loneSurrogate => "lone leading surrogate in hex escape"
  | trailingComma => "trailing comma"
  | trailingCharacters => "trailing characters"
  | halfSurrogatePair => "unexpected end of hex escape"
  | wrongType got expected => "invalid type: " ++ got ++ ", expected " ++ expected
  | wrongLength length expected =>
    "invalid length " ++ toString length ++ ", expected " ++ expected
  | duplicateField name => "duplicate field `" ++ name ++ "`"

structure JsonFault where
  cause : JsonCause
  remaining : Nat

/-- Noticed with everything before `rest` read. -/
def faultAt {α : Type} (cause : JsonCause) (rest : Bytes) : Except JsonFault α :=
  .error ⟨cause, rest.length⟩

/-- Noticed by looking at the first byte of `rest`; the end of the text counts as its last byte. -/
def faultOn {α : Type} (cause : JsonCause) (rest : Bytes) : Except JsonFault α :=
  .error ⟨cause, rest.length - 1⟩

/-- Lines count from one; the column is the number of bytes read of the line. -/
def JsonFault.message (text : Bytes) (f : JsonFault) : String :=
  let read := text.take (text.length - f.remaining)
  let line := 1 + read.count (ascii '\n')
  let column := (read.reverse.takeWhile (· != ascii '\n')).length
  f.cause.text ++ " at line " ++ toString line ++ " column " ++ toString column

end Prebuilt
