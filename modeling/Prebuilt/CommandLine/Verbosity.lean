import Prebuilt.Event

/-! Which events reach the user, and how they look. Each `-v` lowers the threshold by one level and
each `-q` raises it; the counts stop at the largest number of a byte. The messages that say what is
being done have to pass the same threshold, or no report has them. -/

namespace Prebuilt

structure Verbosity where
  verbose : Nat
  quiet : Nat

namespace Verbosity

def maxCount : Nat := 255

/-- Count one more, as far as counts go. -/
def countOne (n : Nat) : Nat := min maxCount (n + 1)

def threshold (v : Verbosity) : Level :=
  match (v.verbose : Int) - v.quiet with
  | .ofNat 0 => .info
  | .ofNat 1 => .debug
  | .ofNat _ => .trace
  | .negSucc 0 => .warn
  | .negSucc _ => .error

/-- Whether what has a level gets through. -/
def passes (v : Verbosity) (l : Level) : Bool := v.threshold.gravity ≤ l.gravity

def shows (v : Verbosity) (e : Event) : Bool := v.passes e.level

end Verbosity

/-- The level of the messages that say what is being done. -/
def purposeLevel : Level := .error

/-- When messages are coloured. -/
inductive Colour where
  | auto
  | always
  | never
  deriving DecidableEq

def Colour.ofName? : String → Option Colour
  | "auto" => some .auto
  | "always" => some .always
  | "never" => some .never
  | _ => none

/-- What the stream for messages adds of its own: whether it takes colours where nobody asked,
whether its locale has pictures, and the lines of a debugging log, those in front of all events first
and then those behind each one. -/
structure Terminal where
  colours : Bool := false
  pictures : Bool := true
  debug : Nat → List String := fun _ => []

def Colour.styles (c : Colour) (t : Terminal) : Bool :=
  match c with
  | .auto => t.colours
  | .always => true
  | .never => false

/-- What stands in front of a grave message: words, with a picture where there are pictures, in bold
and a colour of their own. -/
structure Mark where
  colour : String
  picture : String
  words : String

namespace Mark

def warning : Mark := ⟨"\x1b[33m", "⚠️  ", "Warning:"⟩

def error : Mark := ⟨"\x1b[31m", "🛑  ", "Error:"⟩

def text (m : Mark) (c : Colour) (t : Terminal) : String :=
  let plain := if t.pictures then m.picture ++ m.words else m.words
  if c.styles t then m.colour ++ "\x1b[1m" ++ plain ++ "\x1b[0m" else plain

end Mark

def Level.mark? : Level → Option Mark
  | trace => none
  | debug => none
  | info => none
  | warn => some .warning
  | error => some .error

def Event.shown (c : Colour) (t : Terminal) (e : Event) : String :=
  match e.level.mark? with
  | some mark => mark.text c t ++ " " ++ e.message
  | none => e.message

/-- The lines for what was logged, of which some events are shown. The debugging log sees every event,
behind those who read the messages. -/
def Terminal.lines (t : Terminal) (c : Colour) (shown : Event → Bool) (logged : List Event) :
    List String :=
  t.debug 0 ++ (logged.zipIdx 1).flatMap fun line =>
    (if shown line.1 then [line.1.shown c t] else []) ++ t.debug line.2

end Prebuilt
