import Prebuilt.Json.Number

/-! Passing over a JSON value of any depth. The open lists and objects are kept in a stack, so the
depth is not limited; what strings and numbers stand for is not asked. -/

namespace Prebuilt

inductive JsonFrame where
  | list
  | object
  deriving DecidableEq

namespace JsonFrame

def closing : JsonFrame → UInt8
  | list => ascii ']'
  | object => ascii '\x7d'

def ends : JsonFrame → JsonCause
  | list => .listEnds
  | object => .objectEnds

def noComma : JsonFrame → JsonCause
  | list => .noCommaOrListEnd
  | object => .noCommaOrObjectEnd

end JsonFrame

/-- What is due next: a value, what may follow a value inside `frame`, what may follow the bracket
that opens `frame`, or the name of a member. -/
inductive SkipStage where
  | value
  | after (frame : JsonFrame)
  | opened (frame : JsonFrame)
  | name

/-- Stages that read nothing come before those that read. -/
def SkipStage.rank : SkipStage → Nat
  | opened _ => 1
  | _ => 0

def nextByte (bs : Bytes) : Option (UInt8 × Bytes) :=
  match skipBlanks bs with
  | [] => none
  | b :: rest => some (b, rest)

theorem nextByte_lt {bs rest : Bytes} {b : UInt8} (h : nextByte bs = some (b, rest)) :
    rest.length < bs.length := by
  have hle := skipBlanks_length_le bs
  unfold nextByte at h
  split at h
  · cases h
  · next hs =>
    cases h
    rw [hs] at hle
    exact hle

def skipScalar (b : UInt8) (rest : Bytes) : Except JsonFault Bytes :=
  if b = ascii 'n' then scanWord ['u', 'l', 'l'] rest
  else if b = ascii 't' then scanWord ['r', 'u', 'e'] rest
  else if b = ascii 'f' then scanWord ['a', 'l', 's', 'e'] rest
  else if b = ascii '-' then skipNumber rest
  else if isDigitByte b then skipNumber (b :: rest)
  else if b = ascii '"' then skipString rest
  else faultOn .noValue (b :: rest)

def skipColon (bs : Bytes) : Except JsonFault Bytes :=
  match nextByte bs with
  | none => faultOn .objectEnds []
  | some (b, rest) => if b = ascii ':' then .ok rest else faultOn .noColon (b :: rest)

theorem skipColon_lt {bs rest : Bytes} (h : skipColon bs = .ok rest) :
    rest.length < bs.length := by
  unfold skipColon at h
  split at h
  · cases h
  · next hn =>
    split at h
    · cases h
      exact nextByte_lt hn
    · cases h

theorem skipDigits_length_le (bs : Bytes) : (skipDigits bs).length ≤ bs.length :=
  (List.dropWhile_suffix isDigitByte).length_le

theorem skipExponent_lt {bs rest : Bytes} (h : skipExponent bs = .ok rest) :
    rest.length < bs.length := by
  have hd := skipDigits_length_le
  unfold skipExponent at h
  grind [faultAt]

theorem skipAfterFraction_le {bs rest : Bytes} (h : skipAfterFraction bs = .ok rest) :
    rest.length ≤ bs.length := by
  have he := @skipExponent_lt
  unfold skipAfterFraction at h
  grind

theorem skipAfterInteger_le {bs rest : Bytes} (h : skipAfterInteger bs = .ok rest) :
    rest.length ≤ bs.length := by
  have hd := skipDigits_length_le
  have he := @skipExponent_lt
  have hf := @skipAfterFraction_le
  unfold skipAfterInteger at h
  grind [faultOn]

theorem skipNumber_lt {bs rest : Bytes} (h : skipNumber bs = .ok rest) :
    rest.length < bs.length := by
  have hd := skipDigits_length_le
  have hi := @skipAfterInteger_le
  unfold skipNumber at h
  grind [faultOn, faultAt]

theorem skipScalar_le {b : UInt8} {bs rest : Bytes} (h : skipScalar b bs = .ok rest) :
    rest.length ≤ bs.length := by
  have hw := @scanWord_length_le
  have _hn := @skipNumber_lt
  have hs := @skipString_lt
  unfold skipScalar at h
  grind [faultOn]

/-- Pass over what is due at `stage` and over everything that closes the frames in `stack`, the
innermost one first. A bracket read after a value closes its frame and may end the outermost
value. -/
def skipFrom (stage : SkipStage) (stack : List JsonFrame) (bs : Bytes) : Except JsonFault Bytes :=
  match stage with
  | .value =>
    match _hn : nextByte bs with
    | none => faultOn .valueEnds []
    | some (b, rest) =>
      if b = ascii '[' then skipFrom (.opened .list) stack rest
      else if b = ascii '\x7b' then skipFrom (.opened .object) stack rest
      else
        match _hs : skipScalar b rest with
        | .error f => .error f
        | .ok rest' =>
          match stack with
          | [] => .ok rest'
          | frame :: stack => skipFrom (.after frame) stack rest'
  | .opened frame =>
    match _hn : nextByte bs with
    | none => faultOn frame.ends []
    | some (b, rest) =>
      if b = frame.closing then
        match stack with
        | [] => .ok rest
        | outer :: stack => skipFrom (.after outer) stack rest
      else
        match frame with
        | .list => skipFrom .value (.list :: stack) bs
        | .object => skipFrom .name stack bs
  | .after frame =>
    match _hn : nextByte bs with
    | none => faultOn frame.ends []
    | some (b, rest) =>
      if b = ascii ',' then
        match frame with
        | .list => skipFrom .value (.list :: stack) rest
        | .object => skipFrom .name stack rest
      else if b = frame.closing then
        match stack with
        | [] => .ok rest
        | outer :: stack => skipFrom (.after outer) stack rest
      else faultOn frame.noComma (b :: rest)
  | .name =>
    match _hn : nextByte bs with
    | none => faultOn .objectEnds []
    | some (b, rest) =>
      if b = ascii '"' then
        match _hs : skipString rest with
        | .error f => .error f
        | .ok afterName =>
          match _hc : skipColon afterName with
          | .error f => .error f
          | .ok afterColon => skipFrom .value (.object :: stack) afterColon
      else faultOn .keyNoString (b :: rest)
termination_by (bs.length, stage.rank)
decreasing_by
  all_goals
    have := nextByte_lt _hn
    first
      | (right; simp [SkipStage.rank])
      | (left; have := skipScalar_le _hs; omega)
      | (left; have := skipString_lt _hs; have := skipColon_lt _hc; omega)
      | (left; omega)

theorem skipFrom_lt {stage : SkipStage} {stack : List JsonFrame} {bs rest : Bytes}
    (h : skipFrom stage stack bs = .ok rest) : rest.length < bs.length := by
  have hn := @nextByte_lt
  have hs := @skipScalar_le
  have ht := @skipString_lt
  have hc := @skipColon_lt
  fun_induction skipFrom stage stack bs generalizing rest
  all_goals grind [faultOn]

def skipValue (bs : Bytes) : Except JsonFault Bytes := skipFrom .value [] bs

theorem skipValue_lt {bs rest : Bytes} (h : skipValue bs = .ok rest) : rest.length < bs.length :=
  skipFrom_lt h

end Prebuilt
