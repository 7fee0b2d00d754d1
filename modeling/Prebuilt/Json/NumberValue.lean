import Prebuilt.Decimal.Shortest
import Prebuilt.Json.Number

/-! Values of numbers in JSON texts. Digits are gathered while they fit into 64 bits; those that do
not fit only shift the exponent, and a power of ten then scales the binary fraction. -/

namespace Prebuilt

inductive JsonNumber where
  | integer (n : Int)
  | fraction (x : Float)

/-- All places are written from `0.00001` up to sixteen digits before the point. -/
def JsonNumber.plain : PlainRange := ⟨-5, 15⟩

def JsonNumber.describe : JsonNumber → String
  | integer n => "integer `" ++ toString n ++ "`"
  | fraction x => "floating point `" ++ floatText plain x ++ "`"

abbrev NumberResult := Except JsonFault (JsonNumber × Bytes)

def maxSignificand : Nat := Nat.pow 2 64 - 1

def maxExponent : Nat := Nat.pow 2 31 - 1

def digitOf (b : UInt8) : Nat := b.toNat - 48

/-- Append digits to `value` while the result stays within `limit`: the value, how many digits
were taken, and the bytes left. -/
def gatherDigits (limit : Nat) : (value : Nat) → Bytes → Nat × Nat × Bytes
  | value, [] => (value, 0, [])
  | value, b :: bs =>
    if isDigitByte b && value * 10 + digitOf b ≤ limit then
      let (gathered, count, rest) := gatherDigits limit (value * 10 + digitOf b) bs
      (gathered, count + 1, rest)
    else (value, 0, b :: bs)

def startsWithDigit (bs : Bytes) : Bool := bs.head?.any isDigitByte

def startsWithExponent (bs : Bytes) : Bool := bs.head?.any isExponentMark

def maxPower : Nat := 308

def powerOfTen (n : Nat) : Float := Float.ofScientific 1 false n

/-- Scale by a power of ten, in steps that a binary fraction can hold. Nothing is left of a 64-bit
significand after three steps down. -/
def scaleTen? : (steps : Nat) → Float → Int → Option Float
  | steps, x, exponent =>
    if exponent.natAbs ≤ maxPower then
      if exponent < 0 then some (x / powerOfTen exponent.natAbs)
      else
        let scaled := x * powerOfTen exponent.natAbs
        if scaled.isInf then none else some scaled
    else if x == 0 then some x
    else if 0 ≤ exponent then none
    else
      match steps with
      | 0 => some 0
      | steps + 1 => scaleTen? steps (x / powerOfTen maxPower) (exponent + maxPower)

def signed (negative : Bool) (x : Float) : JsonNumber := .fraction (if negative then -x else x)

def scaled (negative : Bool) (significand : Nat) (exponent : Int) (rest : Bytes) : NumberResult :=
  match scaleTen? 4 significand.toUInt64.toFloat exponent with
  | some x => .ok (signed negative x, rest)
  | none => faultAt .numberTooLarge rest

def readExponent (negative : Bool) (significand : Nat) (start : Int) (bs : Bytes) : NumberResult :=
  let (down, unsigned) := match bs with
    | b :: rest => if isSign b then (b == ascii '-', rest) else (false, b :: rest)
    | [] => (false, [])
  match unsigned with
  | [] => faultAt .valueEnds []
  | b :: rest =>
    if isDigitByte b then
      let (exponent, _, after) := gatherDigits maxExponent (digitOf b) rest
      if startsWithDigit after then
        if significand ≠ 0 && !down then faultAt .numberTooLarge (after.drop 1)
        else .ok (signed negative 0, skipDigits after)
      else scaled negative significand (if down then start - exponent else start + exponent) after
    else faultAt .badNumber rest

def readScale (negative : Bool) (significand : Nat) (exponent : Int) (bs : Bytes) : NumberResult :=
  if startsWithExponent bs then readExponent negative significand exponent (bs.drop 1)
  else scaled negative significand exponent bs

def readFraction (negative : Bool) (significand : Nat) (start : Int) (bs : Bytes) : NumberResult :=
  let (gathered, count, after) := gatherDigits maxSignificand significand bs
  if startsWithDigit after then readScale negative gathered (start - count) (skipDigits after)
  else if count = 0 then faultOn (if after.isEmpty then .valueEnds else .badNumber) after
  else readScale negative gathered (start - count) after

/-- What may follow digits that are worth `significand · 10 ^ exponent`. -/
def readAfterDigits (negative : Bool) (significand : Nat) (exponent : Int) (bs : Bytes) :
    NumberResult :=
  if bs.head? = some (ascii '.') then readFraction negative significand exponent (bs.drop 1)
  else readScale negative significand exponent bs

/-- What may follow an integer that fits. A negative one that does not fit into 64 bits with its
sign, and a negative zero, become fractions. -/
def readAfterInteger (negative : Bool) (significand : Nat) (bs : Bytes) : NumberResult :=
  if bs.head? = some (ascii '.') || startsWithExponent bs then
    readAfterDigits negative significand 0 bs
  else if negative then
    if significand = 0 || Nat.pow 2 63 < significand then
      .ok (signed true significand.toUInt64.toFloat, bs)
    else .ok (.integer (-significand), bs)
  else .ok (.integer significand, bs)

def readNumber (negative : Bool) : Bytes → NumberResult
  | [] => faultAt .valueEnds []
  | b :: rest =>
    if b = ascii '0' then
      if startsWithDigit rest then faultOn .badNumber rest else readAfterInteger negative 0 rest
    else if isDigitByte b then
      let (significand, _, after) := gatherDigits maxSignificand (digitOf b) rest
      if startsWithDigit after then
        let beyond := skipDigits after
        readAfterDigits negative significand (after.length - beyond.length) beyond
      else readAfterInteger negative significand after
    else faultAt .badNumber rest

end Prebuilt
