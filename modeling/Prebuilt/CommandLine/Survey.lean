import Prebuilt.CommandLine.Run

/-! A disk known from having looked at some of its paths. Which paths a request may ask about
depends on what manifests say, so they are found in rounds: what has been seen so far leads to more
paths, until it leads to none. -/

namespace Prebuilt

structure Sighting where
  path : Path
  isFile : Bool
  content : Except FileError Bytes
  canonical : Except FileError Path

abbrev Survey := List Sighting

namespace Survey

def sighting? (s : Survey) (path : Path) : Option Sighting := s.find? (·.path = path)

/-- A file that begins as libraries do counts as one. -/
def library? (s : Survey) (path : Path) : Option Library := do
  let content ← (← s.sighting? path).content.toOption
  if path.isLoaderPath && Library.mark.isPrefixOf content then some ⟨[]⟩ else none

/-- Where nobody has looked there is nothing. -/
def disk (s : Survey) : Disk where
  isFile path := (s.sighting? path).any (·.isFile)
  read path := (s.sighting? path).elim (.error .notFound) Sighting.content
  canonical path := (s.sighting? path).elim (.error .notFound) Sighting.canonical
  library := s.library?

end Survey

namespace Command

def attempts : Command → List Attempt
  | resolve search =>
    let (platform, arch) := search.target.getD (hostPlatform, hostArch)
    match search.plan .builtIn platform arch with
    | .ok plan => plan.map Candidate.attempt
    | .error _ => []
  | _ => []

def packageDirs (c : Command) (dir : Path) : List Path :=
  c.attempts.flatMap fun
    | .package name => name.places [dir]
    | .file _ => []

def files (c : Command) : List Path :=
  c.attempts.filterMap fun
    | .package _ => none
    | .file path => some path

def searchDir : Command → Path
  | candidates search => search.dir
  | resolve search => search.dir
  | targets .. => ⟨""⟩

/-- What to look at, as far as it can be told from what has been seen: the files themselves, the
manifests, the artifacts they point at, and the canonical paths of all these. -/
def pathsOfInterest (c : Command) (seen : Survey) : List Path :=
  let dirs := c.packageDirs c.searchDir
  let artifacts := dirs.filterMap fun dir => do
    let manifest ← (Manifest.ofDisk seen.disk dir).toOption
    (manifest.mainPath dir).toOption
  let named := c.files ++ dirs.map (·.join manifestName) ++ artifacts
  named ++ named.filterMap fun path => (seen.disk.canonical path).toOption

def unseen (c : Command) (seen : Survey) : List Path :=
  (c.pathsOfInterest seen).filter fun path => (seen.sighting? path).isNone

/-- Manifests come first, then artifacts, then the canonical paths of artifacts. -/
def rounds : Nat := 3

end Command

end Prebuilt
