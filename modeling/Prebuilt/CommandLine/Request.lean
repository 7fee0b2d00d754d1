import Prebuilt.CommandLine.Verbosity

/-! What the arguments of the program ask for. Arguments are read from left to right; the first one
that is wrong, or that asks for the version, decides. -/

namespace Prebuilt

inductive UsageError where
  | unknownArgument (text : String)
  | unknownCommand (text : String)
  | missingCommand
  | missingValue (option : String)
  | unexpectedValue (option : String)
  | badValue (option value : String)
  | repeated (option : String)
  | requires (option other : String)
  deriving DecidableEq

inductive Stop where
  | usage (e : UsageError)
  | version

/-- The shape of one argument. A lone hyphen is plain text. -/
inductive Argument where
  | escape
  | long (name : String) (value : Option String)
  | short (letters : List Char)
  | plain

def Argument.ofText (text : String) : Argument :=
  match text.toList with
  | ['-', '-'] => escape
  | '-' :: '-' :: cs =>
    match cs.dropWhile (· != '=') with
    | [] => long (String.ofList cs) none
    | _ :: value => long (String.ofList (cs.takeWhile (· != '='))) (some (String.ofList value))
  | ['-'] => plain
  | '-' :: cs => short cs
  | _ => plain

structure Accepts where
  switches : List String
  options : List String
  version : Bool

structure Given where
  verbose : Nat := 0
  quiet : Nat := 0
  colour : Option Colour := none
  switches : List String := []
  values : List (String × String) := []

namespace Given

def value? (g : Given) (option : String) : Option String := g.values.lookup option

/-- Whether a value will do: a directory is not empty, a family is the name of a package. -/
def isValueOf (option value : String) : Bool :=
  match option with
  | "dir" => value ≠ ""
  | "package-prefix" => PackageName.isValid value
  | _ => true

def addColour (g : Given) (value : String) : Except Stop Given :=
  match g.colour, Colour.ofName? value with
  | some _, _ => .error (.usage (.repeated "color"))
  | none, none => .error (.usage (.badValue "color" value))
  | none, some c => .ok { g with colour := some c }

def addValue (g : Given) (option value : String) : Except Stop Given :=
  if option = "color" then g.addColour value
  else if (g.value? option).isSome then .error (.usage (.repeated option))
  else if isValueOf option value then .ok { g with values := (option, value) :: g.values }
  else .error (.usage (.badValue option value))

def addSwitch (g : Given) (a : Accepts) (name : String) : Except Stop Given :=
  if name = "verbose" then .ok { g with verbose := Verbosity.countOne g.verbose }
  else if name = "quiet" then .ok { g with quiet := Verbosity.countOne g.quiet }
  else if name = "version" && a.version then .error .version
  else if a.switches.contains name then
    if g.switches.contains name then .error (.usage (.repeated name))
    else .ok { g with switches := name :: g.switches }
  else .error (.usage (.unknownArgument name))

def addLetter (g : Given) (a : Accepts) (c : Char) : Except Stop Given :=
  if c = 'v' then g.addSwitch a "verbose"
  else if c = 'q' then g.addSwitch a "quiet"
  else if c = 'V' then g.addSwitch a "version"
  else .error (.usage (.unknownArgument (String.ofList ['-', c])))

/-- Letters count one by one. -/
def addLetters (g : Given) (a : Accepts) : List Char → Except Stop Given
  | [] => .ok g
  | c :: cs => do (← g.addLetter a c).addLetters a cs

def takesValue (a : Accepts) (name : String) : Bool := name == "color" || a.options.contains name

def isKnown (a : Accepts) (name : String) : Bool :=
  takesValue a name || a.switches.contains name || name == "verbose" || name == "quiet" ||
    (name == "version" && a.version)

/-- Read arguments up to the first plain one; what is left begins with it. After an escape
everything is plain, and `escaped` says so. -/
def readUpToPlain (a : Accepts) (g : Given) : List String → Except Stop (Given × Bool × List String)
  | [] => .ok (g, false, [])
  | text :: rest =>
    match Argument.ofText text with
    | .escape => .ok (g, true, rest)
    | .plain => .ok (g, false, text :: rest)
    | .short letters => do readUpToPlain a (← g.addLetters a letters) rest
    | .long name (some value) =>
      if takesValue a name then do readUpToPlain a (← g.addValue name value) rest
      else if isKnown a name then .error (.usage (.unexpectedValue name))
      else .error (.usage (.unknownArgument text))
    | .long name none =>
      if takesValue a name then
        match rest with
        | [] => .error (.usage (.missingValue name))
        | value :: rest =>
          match Argument.ofText value with
          | .plain => do readUpToPlain a (← g.addValue name value) rest
          | _ => .error (.usage (.missingValue name))
      else do readUpToPlain a (← g.addSwitch a name) rest

def readAll (a : Accepts) (args : List String) : Except Stop Given := do
  match ← readUpToPlain a {} args with
  | (g, _, []) => .ok g
  | (_, _, text :: _) => .error (.usage (.unknownArgument text))

end Given

inductive Command where
  | targets (platform : Option String) (json : Bool)
  | candidates (search : Search)
  | resolve (search : Search)

structure Request where
  verbosity : Verbosity
  colour : Colour
  command : Command

namespace Request

def mainAccepts : Accepts := ⟨[], [], true⟩

def targetsAccepts : Accepts := ⟨["json"], ["platform"], false⟩

def searchAccepts : Accepts :=
  ⟨[], ["dir", "stem", "package-prefix", "ext", "platform", "arch"], false⟩

/-- The search that the given options describe. The two names of a pair need each other. -/
def search (g : Given) : Except Stop Search := do
  let target ← match g.value? "platform", g.value? "arch" with
    | some platform, some arch => .ok (some (platform, arch))
    | some _, none => .error (Stop.usage (.requires "platform" "arch"))
    | none, some _ => .error (Stop.usage (.requires "arch" "platform"))
    | none, none => .ok none
  .ok {
    dir := ⟨(g.value? "dir").getD "."⟩
    stem := (g.value? "stem").getD "index"
    family := (g.value? "package-prefix").map PackageName.mk
    extension := g.value? "ext"
    target := target }

/-- What is given after the command goes before what is given in front of it. -/
def make (before after : Given) (command : Command) : Request where
  verbosity :=
    ⟨if after.verbose = 0 then before.verbose else after.verbose,
      if after.quiet = 0 then before.quiet else after.quiet⟩
  colour := (after.colour.orElse fun _ => before.colour).getD .auto
  command := command

def ofCommand (before : Given) (name : String) (args : List String) : Except Stop Request :=
  match name with
  | "targets" => do
    let g ← Given.readAll targetsAccepts args
    .ok (make before g (.targets (g.value? "platform") (g.switches.contains "json")))
  | "candidates" => do
    let g ← Given.readAll searchAccepts args
    .ok (make before g (.candidates (← search g)))
  | "resolve" => do
    let g ← Given.readAll searchAccepts args
    .ok (make before g (.resolve (← search g)))
  | _ => .error (.usage (.unknownCommand name))

def ofArgs (args : List String) : Except Stop Request := do
  match ← Given.readUpToPlain mainAccepts {} args with
  | (_, _, []) => .error (.usage .missingCommand)
  | (_, true, text :: _) => .error (.usage (.unknownArgument text))
  | (g, false, name :: rest) => ofCommand g name rest

end Request

end Prebuilt
