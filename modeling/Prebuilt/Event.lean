import Prebuilt.Search

/-! What is logged on the way, as data. Each event has a level and a message. -/

namespace Prebuilt

inductive Level where
  | trace
  | debug
  | info
  | warn
  | error
  deriving DecidableEq

/-- From the most talkative level to the gravest. -/
def Level.gravity : Level → Nat
  | trace => 0
  | debug => 1
  | info => 2
  | warn => 3
  | error => 4

def Level.name : Level → String
  | trace => "trace"
  | debug => "debug"
  | info => "info"
  | warn => "warn"
  | error => "error"

inductive Event where
  | running (platform arch : String)
  | trying (attempt : Attempt) (target : Target)
  | probed (path : Path) (present : Bool)
  | looking (name : PackageName) (dir : Path)
  | found (name : PackageName) (dir : Path)
  | misnamed (dir : Path) (name : PackageName) (declared : String)
  | alreadyLoaded (path : Path)
  | loaded (attempt : Attempt) (target : Target)
  deriving DecidableEq

namespace Event

def level : Event → Level
  | running .. => .info
  | trying .. => .debug
  | probed .. => .trace
  | looking .. => .trace
  | found .. => .debug
  | misnamed .. => .warn
  | alreadyLoaded .. => .debug
  | loaded .. => .info

def message : Event → String
  | running platform arch => "running on " ++ platform ++ "/" ++ arch
  | trying attempt target => "trying " ++ attempt.text ++ " for " ++ target.text
  | probed path present => "probed " ++ path.text ++ ": " ++ if present then "true" else "false"
  | looking name dir => "looking for " ++ name.text ++ " in " ++ dir.text
  | found name dir => "found package " ++ name.text ++ " at " ++ dir.text
  | misnamed dir name declared =>
    dir.text ++ " is installed as " ++ name.text ++ ", but calls itself " ++ declared
  | alreadyLoaded path => path.text ++ " already loaded"
  | loaded attempt target => "loaded native binding " ++ attempt.text ++ " (" ++ target.raw ++ ")"

end Event

end Prebuilt
