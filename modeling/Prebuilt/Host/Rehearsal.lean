import Prebuilt.Host.Fixed

/-! A host with made-up files and packages. What it loads is the thing it was asked for. -/

namespace Prebuilt

/-- Broken files and packages are present but do not load. -/
structure Rehearsal where
  platform : String
  arch : String
  files : List Path
  brokenFiles : List (Path × Failure)
  packages : List String
  brokenPackages : List (String × Failure)

namespace Rehearsal

def addFile (r : Rehearsal) (path : Path) : Rehearsal := { r with files := path :: r.files }

def addPackage (r : Rehearsal) (name : String) : Rehearsal :=
  { r with packages := name :: r.packages }

def breakFile (r : Rehearsal) (path : Path) (cause : Failure) : Rehearsal :=
  { r with files := path :: r.files, brokenFiles := (path, cause) :: r.brokenFiles }

def breakPackage (r : Rehearsal) (name : String) (cause : Failure) : Rehearsal :=
  { r with brokenPackages := (name, cause) :: r.brokenPackages }

/-- Files go by path equality. -/
def removeFile (r : Rehearsal) (path : Path) : Rehearsal :=
  { r with
    files := r.files.filter fun file => !file.same path
    brokenFiles := r.brokenFiles.filter fun file => !file.1.same path }

def removePackage (r : Rehearsal) (name : String) : Rehearsal :=
  { r with
    packages := r.packages.filter (· != name)
    brokenPackages := r.brokenPackages.filter (·.1 != name) }

/-- The answers it gives. A broken package hides a good one of its name. -/
def host (r : Rehearsal) : FixedHost Attempt where
  platform := r.platform
  arch := r.arch
  isFile path := r.files.any (·.same path)
  loadFile path :=
    match r.brokenFiles.find? (·.1.same path) with
    | some broken => .error broken.2
    | none => .ok (.file path)
  loadPackage name _ :=
    match r.brokenPackages.find? (·.1 == name.text) with
    | some broken => .error (.broken name broken.2)
    | none => if r.packages.contains name.text then .ok (.package name) else .error (.notFound name)

end Rehearsal

end Prebuilt
