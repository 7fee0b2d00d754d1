/-! Paths as they are written. A path is its text; two paths name the same place when their
components agree, which forgets repeated and trailing slashes and inner dots. -/

namespace Prebuilt

structure Path where
  text : String
  deriving DecidableEq

abbrev Segment := List Char

inductive Component where
  | root
  | here
  | up
  | name (segment : Segment)
  deriving DecidableEq

namespace Path

def chars (p : Path) : List Char := p.text.toList

def ofChars (cs : List Char) : Path := ⟨String.ofList cs⟩

def segments (p : Path) : List Segment := p.chars.splitOn '/'

def isAbsolute (p : Path) : Bool := p.chars.head? == some '/'

/-- An absolute right side replaces the left one. A slash goes between the two unless the left
side is empty or ends in one. -/
def join (p q : Path) : Path :=
  if q.isAbsolute then q
  else if p.chars.getLast?.all (· == '/') then ⟨p.text ++ q.text⟩
  else ⟨p.text ++ "/" ++ q.text⟩

/-- Segments that stand for nothing anywhere but at the start of a path. -/
def isBlank (s : Segment) : Bool := s == [] || s == ['.']

def componentOf (s : Segment) : Component :=
  if s = ['.', '.'] then .up else if s = ['.'] then .here else .name s

/-- Only a leading dot of a relative path counts as a component. -/
def components (p : Path) : List Component :=
  match p.segments with
  | [] => []
  | first :: rest =>
    let body := (rest.filter fun s => !isBlank s).map componentOf
    if p.isAbsolute then .root :: body
    else if first = [] then body
    else componentOf first :: body

/-- Equality of places, as far as the text alone tells. -/
def same (p q : Path) : Bool := p.components == q.components

def startsWith (p dir : Path) : Bool := dir.components.isPrefixOf p.components

def fileName? (p : Path) : Option Segment :=
  match p.components.getLast? with
  | some (.name s) => some s
  | _ => none

/-- The path left of a first segment followed by others, given last one first. Blank segments at
its end are dropped; a bare root keeps its slash. -/
def upTo (first : Segment) (reversed : List Segment) : Path :=
  match (reversed.dropWhile isBlank).reverse with
  | [] => ofChars (if first = [] then ['/'] else first)
  | rest => ofChars (['/'].intercalate (first :: rest))

/-- What is above a path of the given segments, nearest first: one component less at each step,
down to the root or to the empty path. -/
def aboveSegments (first : Segment) : List Segment → List Path
  | [] => if first = [] then [] else [ofChars []]
  | s :: reversed =>
    if isBlank s then aboveSegments first reversed
    else upTo first reversed :: aboveSegments first reversed

def above (p : Path) : List Path :=
  match p.segments with
  | [] => []
  | first :: rest => aboveSegments first rest.reverse

def parent? (p : Path) : Option Path := p.above.head?

/-- The path itself, as it is written, and then what is above it. -/
def ancestors (p : Path) : List Path := p :: p.above

def ofNames (names : List Segment) : Path := ofChars ('/' :: ['/'].intercalate names)

end Path

end Prebuilt
