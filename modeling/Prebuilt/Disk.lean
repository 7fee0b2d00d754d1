import Prebuilt.Json.Fault
import Prebuilt.Path

/-! A disk as far as a search can tell: what the system answers about paths at one moment, and what
its dynamic loader makes of them. -/

namespace Prebuilt

inductive FileError where
  | notFound
  | notDirectory
  | isDirectory
  | nameTooLong
  | tooManyLinks
  | nulInPath
  | other (words : String) (code : Nat)
  deriving DecidableEq

def FileError.text : FileError → String
  | notFound => "No such file or directory (os error 2)"
  | notDirectory => "Not a directory (os error 20)"
  | isDirectory => "Is a directory (os error 21)"
  | nameTooLong => "File name too long (os error 36)"
  | tooManyLinks => "Too many levels of symbolic links (os error 40)"
  | nulInPath => "file name contained an unexpected NUL byte"
  | other words code => words ++ " (os error " ++ toString code ++ ")"

structure Library where
  symbols : List String
  deriving DecidableEq

def Library.mark : Bytes := [0x7f, ascii 'E', ascii 'L', ascii 'F']

/-- `isFile` follows links; `canonical` is the one absolute path without links, dots or repeated
slashes; `library` is what the dynamic loader opens, if it does. -/
structure Disk where
  isFile : Path → Bool
  read : Path → Except FileError Bytes
  canonical : Path → Except FileError Path
  library : Path → Option Library

/-- A path as the dynamic loader reads it, up to a NUL at its end. -/
def Path.loaderName (p : Path) : List Char :=
  if p.chars.getLast? = some '\x00' then p.chars.dropLast else p.chars

/-- What the dynamic loader replaces in a name where it follows a dollar sign. -/
def loaderVariables : List (List Char) := ["ORIGIN".toList, "PLATFORM".toList, "LIB".toList]

def isIdentifierChar (c : Char) : Bool := c.isAlphanum || c == '_'

/-- Whether a variable, in braces or ended by a character of no identifier, comes first. -/
def startsWithVariable (cs : List Char) : Bool :=
  loaderVariables.any fun name =>
    ('\x7b' :: name ++ ['\x7d']).isPrefixOf cs ||
      (name.isPrefixOf cs && !((cs.drop name.length).head?.any isIdentifierChar))

def hasVariable : List Char → Bool
  | [] => false
  | c :: cs => (c == '$' && startsWithVariable cs) || hasVariable cs

/-- Whether the loader looks at the very path. It searches the system's own directories for a name
without a slash, and variables lead there too. -/
def Path.isLoaderPath (p : Path) : Bool :=
  p.loaderName.contains '/' && !hasVariable p.loaderName

/-- Stands for the dynamic loader's own words, which are not modelled. -/
def loaderWords : String := "<loader error>"

end Prebuilt
