/-! The shortest decimal that reads back as a binary fraction of 64 bits. Of the decimals with the
fewest digits the one nearest to the value is taken. -/

namespace Prebuilt

/-- The reals that round to a positive value are those from `low` to `high` over `den`, the ends
belonging to them when `closed`; the value itself is `mid` over `den`. -/
structure Rounding where
  low : Nat
  mid : Nat
  high : Nat
  den : Nat
  closed : Bool

/-- From the fields of the encoding: a fraction of 52 bits and an exponent of 11. The interval is
narrower below a power of two. -/
def Rounding.ofFields (fraction exponent : Nat) : Rounding :=
  let m := if exponent = 0 then fraction else fraction + Nat.pow 2 52
  let power := max exponent 1
  let up := if power ≥ 1077 then Nat.pow 2 (power - 1077) else 1
  let den := if power ≥ 1077 then 1 else Nat.pow 2 (1077 - power)
  let below := if fraction = 0 && exponent > 1 then 1 else 2
  ⟨(4 * m - below) * up, 4 * m * up, (4 * m + 2) * up, den, m % 2 = 0⟩

structure Grid where
  digits : Nat
  exponent : Int

/-- Compare `digits · 10 ^ exponent` with `num / den`, by the two sides brought to integers. -/
def Grid.sides (g : Grid) (num den : Nat) : Nat × Nat :=
  match g.exponent with
  | .ofNat e => (g.digits * Nat.pow 10 e * den, num)
  | .negSucc e => (g.digits * den, num * Nat.pow 10 (e + 1))

def Grid.readsBack (g : Grid) (r : Rounding) : Bool :=
  let low := g.sides r.low r.den
  let high := g.sides r.high r.den
  if r.closed then low.2 ≤ low.1 && high.1 ≤ high.2 else low.2 < low.1 && high.1 < high.2

def Rounding.magnitude (r : Rounding) : Int :=
  if r.den ≤ r.mid then ((Nat.toDigits 10 (r.mid / r.den)).length : Int) - 1
  else
    let d := (Nat.toDigits 10 (r.den / r.mid)).length
    if r.den ≤ r.mid * Nat.pow 10 (d - 1) then -((d : Int) - 1) else -(d : Int)

/-- The neighbours of the value among the decimals of `n` digits; the nearer one of those that
read back, and of two equally near ones the one with an even last digit. -/
def Rounding.onGrid? (r : Rounding) (n : Nat) : Option Grid :=
  let exponent := r.magnitude - ((n : Int) - 1)
  let (unit, value) := Grid.sides ⟨1, exponent⟩ r.mid r.den
  let below : Grid := ⟨value / unit, exponent⟩
  let above : Grid := ⟨value / unit + 1, exponent⟩
  match below.readsBack r, above.readsBack r with
  | true, true =>
    let twice := 2 * (value % unit)
    if twice < unit || (twice = unit && below.digits % 2 = 0) then some below else some above
  | true, false => some below
  | false, true => some above
  | false, false => none

def Rounding.shortest (r : Rounding) : Grid :=
  ((List.range 17).findSome? fun n => r.onGrid? (n + 1)).getD ⟨0, 0⟩

/-- Digits without zeros at their end, and the exponent of the first of them. -/
def Grid.scientific (g : Grid) : List Char × Int :=
  let digits := Nat.toDigits 10 g.digits
  ((digits.reverse.dropWhile (· == '0')).reverse, g.exponent + digits.length - 1)

/-- The least and the greatest exponent of the first digit that are written with all places. -/
structure PlainRange where
  least : Int
  greatest : Int

/-- Digits and the exponent of the first one as text: with a point and at least one digit on each
side of it, or with an exponent that always has a sign. -/
def decimalText (plain : PlainRange) (digits : List Char) (exponent : Int) : List Char :=
  if exponent < plain.least || plain.greatest < exponent then
    let fraction := match digits.drop 1 with
      | [] => []
      | rest => '.' :: rest
    let mark := if exponent < 0 then ['e', '-'] else ['e', '+']
    digits.take 1 ++ fraction ++ mark ++ Nat.toDigits 10 exponent.natAbs
  else if exponent < 0 then
    ['0', '.'] ++ List.replicate (exponent.natAbs - 1) '0' ++ digits
  else
    let whole := exponent.natAbs + 1
    let fraction := digits.drop whole
    digits.take whole ++ List.replicate (whole - digits.length) '0' ++ '.' ::
      if fraction.isEmpty then ['0'] else fraction

def floatText (plain : PlainRange) (x : Float) : String :=
  let bits := x.toBits.toNat
  let sign := if bits / Nat.pow 2 63 = 1 then "-" else ""
  let fraction := bits % Nat.pow 2 52
  let exponent := bits / Nat.pow 2 52 % Nat.pow 2 11
  if fraction = 0 && exponent = 0 then sign ++ "0.0"
  else
    let (digits, first) := (Rounding.ofFields fraction exponent).shortest.scientific
    sign ++ String.ofList (decimalText plain digits first)

end Prebuilt
