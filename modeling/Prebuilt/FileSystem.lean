import Prebuilt.Disk

/-! A file system as a table from absolute places to what is there, and how paths lead through it.
Names are looked up one at a time in the directory reached so far; a link is replaced by its
target, and `..` leaves the directory actually reached. -/

namespace Prebuilt

/-- An absolute place: the names from the root down to it. -/
abbrev Place := List Segment

inductive FileEntry where
  | dir
  | bytes (content : Bytes)
  | library (library : Library)
  | link (target : Path)
  deriving DecidableEq

namespace FileEntry

/-- Files hold bytes or a library; directories and links do not count. -/
def isFile : FileEntry → Bool
  | bytes _ => true
  | library _ => true
  | _ => false

def content : FileEntry → Except FileError Bytes
  | dir => .error .isDirectory
  | bytes content => .ok content
  | library _ => .ok Library.mark
  | link _ => .error .tooManyLinks

end FileEntry

structure FileSystem where
  table : List (Place × FileEntry)

namespace FileSystem

def empty : FileSystem := ⟨[]⟩

/-- The root is always there. -/
def entry? (fs : FileSystem) (place : Place) : Option FileEntry :=
  if place = [] then some .dir else (fs.table.find? (·.1 = place)).map (·.2)

def isDir (fs : FileSystem) (place : Place) : Bool := fs.entry? place = some .dir

def put (fs : FileSystem) (place : Place) (e : FileEntry) : FileSystem :=
  ⟨(place, e) :: fs.table.filter (·.1 ≠ place)⟩

/-- Nothing is left at or below the place. -/
def erase (fs : FileSystem) (place : Place) : FileSystem :=
  ⟨fs.table.filter fun row => !place.isPrefixOf row.1⟩

def maxName : Nat := 255

def maxPath : Nat := 4095

def maxLinks : Nat := 40

def nameBytes (s : Segment) : Nat := (String.ofList s).utf8ByteSize

/-- The place that segments lead to from `place`. Each of them, blank ones too, needs a directory
to start from. -/
def follow (fs : FileSystem) (links : Nat) (place : Place) (todo : List Segment) :
    Except FileError Place :=
  match todo with
  | [] => .ok place
  | s :: rest =>
    if !fs.isDir place then .error .notDirectory
    else if Path.isBlank s then fs.follow links place rest
    else if s = ['.', '.'] then fs.follow links place.dropLast rest
    else if maxName < nameBytes s then .error .nameTooLong
    else
      match fs.entry? (place ++ [s]) with
      | none => .error .notFound
      | some (.link target) =>
        match links with
        | 0 => .error .tooManyLinks
        | links + 1 =>
          fs.follow links (if target.isAbsolute then [] else place) (target.segments ++ rest)
      | some _ => fs.follow links (place ++ [s]) rest
termination_by (links, todo.length)

/-- The place that a path leads to, relative paths starting at `cwd`. -/
def locate (fs : FileSystem) (cwd : Place) (path : Path) : Except FileError Place :=
  if path.chars.contains '\x00' then .error .nulInPath
  else if path.chars = [] then .error .notFound
  else fs.follow maxLinks (if path.isAbsolute then [] else cwd) path.segments

def entryAt (fs : FileSystem) (cwd : Place) (path : Path) : Except FileError FileEntry :=
  match fs.locate cwd path with
  | .error .nulInPath => .error .nulInPath
  | located =>
    if maxPath < path.text.utf8ByteSize then .error .nameTooLong
    else located.bind fun place =>
      match fs.entry? place with
      | some e => .ok e
      | none => .error .notFound

/-- What the loader opens. It takes the empty name for the program itself; in the system's own
directories there is nothing for it. -/
def libraryAt (fs : FileSystem) (cwd : Place) (path : Path) : Option Library :=
  if path.loaderName = [] then some ⟨[]⟩
  else if !path.isLoaderPath then none
  else
    match fs.entryAt cwd (.ofChars path.loaderName) with
    | .ok (.library l) => some l
    | _ => none

def disk (fs : FileSystem) (cwd : Place) : Disk where
  isFile path :=
    match fs.entryAt cwd path with
    | .ok e => e.isFile
    | .error _ => false
  read path := fs.entryAt cwd path >>= FileEntry.content
  canonical path := (fs.locate cwd path).map Path.ofNames
  library path := fs.libraryAt cwd path

/-! Changing a file system. -/

/-- The same walk with missing directories made on the way. -/
def makeDirs (fs : FileSystem) (links : Nat) (place : Place) (todo : List Segment) :
    Except FileError (FileSystem × Place) :=
  match todo with
  | [] => .ok (fs, place)
  | s :: rest =>
    if !fs.isDir place then .error .notDirectory
    else if Path.isBlank s then fs.makeDirs links place rest
    else if s = ['.', '.'] then fs.makeDirs links place.dropLast rest
    else if maxName < nameBytes s then .error .nameTooLong
    else
      match fs.entry? (place ++ [s]) with
      | none => (fs.put (place ++ [s]) .dir).makeDirs links (place ++ [s]) rest
      | some (.link target) =>
        match links with
        | 0 => .error .tooManyLinks
        | links + 1 =>
          fs.makeDirs links (if target.isAbsolute then [] else place) (target.segments ++ rest)
      | some _ => fs.makeDirs links (place ++ [s]) rest
termination_by (links, todo.length)

def cutLast (path : Path) : List Segment × Option Segment :=
  let kept := (path.segments.reverse.dropWhile Path.isBlank).reverse
  (kept.dropLast, kept.getLast?)

/-- Put an entry at a path. Parents are made, and a file or link that is there goes first. -/
def write (fs : FileSystem) (cwd : Place) (path : Path) (e : FileEntry) : FileSystem :=
  let start : Place := if path.isAbsolute then [] else cwd
  let (parents, last) := cutLast path
  match fs.makeDirs maxLinks start parents, last with
  | .error _, _ => fs
  | .ok (made, _), none => made
  | .ok (made, place), some name =>
    if made.isDir (place ++ [name]) then made else made.put (place ++ [name]) e

/-- A slash at the end of a path asks for a directory. -/
def asksForDir (path : Path) : Bool := path.segments.getLast? = some []

/-- Remove what is at a path, if there is anything: a file, a link, or a directory with all it
holds. -/
def remove? (fs : FileSystem) (cwd : Place) (path : Path) : Option FileSystem := do
  let start : Place := if path.isAbsolute then [] else cwd
  let (parents, last) := cutLast path
  let name ← last
  match fs.follow maxLinks start parents with
  | .error _ => none
  | .ok place =>
    match fs.entry? (place ++ [name]) with
    | none => none
    | some .dir => some (fs.erase (place ++ [name]))
    | some _ => if asksForDir path then none else some (fs.erase (place ++ [name]))

end FileSystem

end Prebuilt
