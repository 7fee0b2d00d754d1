import Prebuilt.Path
import Prebuilt.Text.Quoted

/-! Names of installed packages, plain or scoped. A name is read from text by a small grammar;
the name of a package for one target is built from a prefix and is not read again. -/

namespace Prebuilt

structure PackageName where
  text : String
  deriving DecidableEq

namespace PackageName

def maxBytes : Nat := 214

def isLeading (c : Char) : Bool :=
  ('a' ≤ c && c ≤ 'z') || ('0' ≤ c && c ≤ '9') || c == '~' || c == '-'

def isInner (c : Char) : Bool := isLeading c || c == '.' || c == '_'

def isPart : List Char → Bool
  | [] => false
  | c :: cs => isLeading c && cs.all isInner

/-- A part, or a scope sign, a part, a slash and a part. -/
inductive Spelled : List Char → Prop where
  | plain {part : List Char} (h : isPart part = true) : Spelled part
  | scoped {scope part : List Char} (hs : isPart scope = true) (hp : isPart part = true) :
      Spelled ('@' :: scope ++ '/' :: part)

/-- Whether the characters spell a name, whatever their number. -/
def isSpelled : List Char → Bool
  | [] => false
  | c :: cs =>
    if c = '@' then
      match cs.dropWhile (· ≠ '/') with
      | [] => false
      | _ :: part => isPart (cs.takeWhile (· ≠ '/')) && isPart part
    else isPart (c :: cs)

structure Invalid where
  text : String
  deriving DecidableEq

def Invalid.message (e : Invalid) : String := "Invalid package name " ++ quote e.text

def isValid (s : String) : Bool := s.utf8ByteSize ≤ maxBytes && isSpelled s.toList

def parse (s : String) : Except Invalid PackageName :=
  if isValid s then .ok ⟨s⟩ else .error ⟨s⟩

def forTarget (name : PackageName) (shortId : String) : PackageName :=
  ⟨name.text ++ "-" ++ shortId⟩

/-- The directories below a modules directory that lead to the package. -/
def components (name : PackageName) : List String :=
  (name.text.toList.splitOn '/').map String.ofList

def below (name : PackageName) (dir : Path) : Path :=
  name.components.foldl (fun at' c => at'.join ⟨c⟩) dir

end PackageName

end Prebuilt
