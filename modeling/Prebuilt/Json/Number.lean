import Prebuilt.Json.Scan

/-! Numbers in JSON texts. Passing over a number checks its form only; reading one also finds its
value, an integer of 64 bits where that is exact and a binary fraction otherwise. -/

namespace Prebuilt

def isExponentMark (b : UInt8) : Bool := b == ascii 'e' || b == ascii 'E'

def isSign (b : UInt8) : Bool := b == ascii '+' || b == ascii '-'

def skipDigits (bs : Bytes) : Bytes := bs.dropWhile isDigitByte

def skipExponent (bs : Bytes) : Except JsonFault Bytes :=
  let unsigned := match bs with
    | b :: rest => if isSign b then rest else b :: rest
    | [] => []
  match unsigned with
  | [] => faultAt .badNumber []
  | b :: rest => if isDigitByte b then .ok (skipDigits rest) else faultAt .badNumber rest

def skipAfterFraction : Bytes → Except JsonFault Bytes
  | b :: rest => if isExponentMark b then skipExponent rest else .ok (b :: rest)
  | [] => .ok []

def skipAfterInteger : Bytes → Except JsonFault Bytes
  | b :: rest =>
    if b = ascii '.' then
      match rest with
      | d :: _ =>
        if isDigitByte d then skipAfterFraction (skipDigits rest) else faultOn .badNumber rest
      | [] => faultOn .badNumber []
    else if isExponentMark b then skipExponent rest
    else .ok (b :: rest)
  | [] => .ok []

/-- Pass over a number without its minus sign. A leading zero stands alone. -/
def skipNumber : Bytes → Except JsonFault Bytes
  | [] => faultAt .badNumber []
  | b :: rest =>
    if b = ascii '0' then
      match rest with
      | d :: _ => if isDigitByte d then faultOn .badNumber rest else skipAfterInteger rest
      | [] => .ok []
    else if isDigitByte b then skipAfterInteger (skipDigits rest)
    else faultAt .badNumber rest

end Prebuilt
