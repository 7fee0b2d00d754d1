import Prebuilt.Failure
import Prebuilt.Platform

/-! Where a binding might be. A search names a directory and how artifacts are called; the plan
of a search lists one candidate for each build of the pair, in catalog order. -/

namespace Prebuilt

inductive Attempt where
  | package (name : PackageName)
  | file (path : Path)
  deriving DecidableEq

namespace Attempt

def text : Attempt → String
  | package name => name.text
  | file path => path.text

/-- Packages agree by name, files by path. -/
def same : Attempt → Attempt → Bool
  | package a, package b => a == b
  | file a, file b => a.same b
  | _, _ => false

end Attempt

/-- What to look for. With `family` set each candidate is the package of that family for its
target, otherwise a file in `dir`. -/
structure Search where
  dir : Path
  stem : String := "index"
  family : Option PackageName := none
  extension : Option String := none
  target : Option (String × String) := none

structure Candidate where
  target : Target
  attempt : Attempt

namespace Search

/-- The ending of artifact files: the one asked for, or the platform's own. -/
def ending (s : Search) (platform : String) : String :=
  s.extension.getD (nativeExtension platform)

def artifact (s : Search) (platform : String) (t : Target) : String :=
  s.stem ++ "." ++ t.shortId ++ "." ++ s.ending platform

def attempt (s : Search) (platform : String) (t : Target) : Attempt :=
  match s.family with
  | some family => .package (family.forTarget t.shortId)
  | none => .file (s.dir.join ⟨s.artifact platform t⟩)

/-- One candidate for each build of the pair, most preferred first. -/
def plan (s : Search) (catalog : Catalog) (platform arch : String) :
    Except ResolveError (List Candidate) :=
  match catalog.lookup platform arch with
  | .error e => .error e
  | .ok targets => .ok (targets.map fun t => ⟨t, s.attempt platform t⟩)

theorem plan_of_none {catalog : Catalog} {platform arch : String} (s : Search)
    (h : catalog.lookup? platform arch = none) :
    s.plan catalog platform arch = .error (.unsupportedTarget platform arch) := by
  simp [plan, Catalog.lookup, h]

theorem plan_of_some {catalog : Catalog} {platform arch : String} {targets : List Target}
    (s : Search) (h : catalog.lookup? platform arch = some targets) :
    s.plan catalog platform arch = .ok (targets.map fun t => ⟨t, s.attempt platform t⟩) := by
  simp [plan, Catalog.lookup, h]

end Search

end Prebuilt
