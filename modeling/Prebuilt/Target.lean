/-! A target is a build of a native binding: a platform, an architecture and, where one of each
admits several builds, the name of the binary interface. -/

namespace Prebuilt

/-- One row of a table of targets. `raw` is what a toolchain calls the build. -/
structure Triple where
  platform : String
  arch : String
  abi : Option String
  raw : String
  deriving DecidableEq

structure TargetKey where
  platform : String
  arch : String
  abi : Option String
  deriving DecidableEq

/-- A build and every raw name it goes by, the first of them set apart. -/
structure Target where
  key : TargetKey
  raw : String
  aliases : List String
  deriving DecidableEq

def Triple.key (t : Triple) : TargetKey := ⟨t.platform, t.arch, t.abi⟩

/-- One write to a hasher: a text, or the number of a variant ahead of what it holds. -/
inductive HashWrite where
  | text (s : String)
  | variant (index : Nat)
  deriving DecidableEq

def TargetKey.shortId (k : TargetKey) : String :=
  match k.abi with
  | none => k.platform ++ "-" ++ k.arch
  | some abi => k.platform ++ "-" ++ k.arch ++ "-" ++ abi

namespace Target

def platform (t : Target) : String := t.key.platform

def arch (t : Target) : String := t.key.arch

def abi (t : Target) : Option String := t.key.abi

def shortId (t : Target) : String := t.key.shortId

def rawTriples (t : Target) : List String := t.raw :: t.aliases

/-- Two targets are the same build when their keys agree, whatever names are recorded. -/
def sameBuild (t u : Target) : Bool := t.key == u.key

/-- What a hasher is fed of a target: the three parts that identify it, the last with its variant. -/
def hashed (t : Target) : List HashWrite :=
  [.text t.platform, .text t.arch] ++
    match t.abi with
    | none => [.variant 0]
    | some abi => [.variant 1, .text abi]

def text (t : Target) : String :=
  t.shortId ++ " (" ++ String.intercalate ", " t.rawTriples ++ ")"

def ofTriple (t : Triple) : Target := ⟨t.key, t.raw, []⟩

/-- Keep one more raw name, at its first appearance only. -/
def addRaw (t : Target) (raw : String) : Target :=
  if raw ∈ t.rawTriples then t else { t with aliases := t.aliases ++ [raw] }

end Target

end Prebuilt
