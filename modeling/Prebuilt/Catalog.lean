import Prebuilt.Failure
import Prebuilt.Target

/-! The catalog of known targets: platforms in order of first appearance, in each its
architectures, in each the builds to try, most preferred first. Rows that agree on platform,
architecture and interface are one build. -/

namespace Prebuilt

structure ArchEntry where
  arch : String
  targets : List Target
  deriving DecidableEq

structure PlatformEntry where
  platform : String
  archs : List ArchEntry
  deriving DecidableEq

structure Catalog where
  entries : List PlatformEntry
  deriving DecidableEq

/-- Apply `change` to the first element that satisfies `found`, or add `fresh` at the end. -/
def changeOrAdd {α : Type} (found : α → Bool) (change : α → α) (fresh : α) : List α → List α
  | [] => [fresh]
  | x :: xs => if found x then change x :: xs else x :: changeOrAdd found change fresh xs

theorem changeOrAdd_of_absent {α : Type} {found : α → Bool} {change : α → α} {fresh : α}
    {xs : List α} (h : ∀ x ∈ xs, found x = false) :
    changeOrAdd found change fresh xs = xs ++ [fresh] := by
  induction xs with
  | nil => rfl
  | cons x xs ih =>
    have hh := ih fun y hy => h y (List.mem_cons_of_mem x hy)
    simp [changeOrAdd, h x List.mem_cons_self, hh]

/-- A row either gives another name to a build already listed or brings a new build. -/
def addTarget (row : Triple) : List Target → List Target :=
  changeOrAdd (fun t => t.abi == row.abi) (fun t => t.addRaw row.raw) (.ofTriple row)

def addArch (row : Triple) : List ArchEntry → List ArchEntry :=
  changeOrAdd (fun e => e.arch == row.arch) (fun e => { e with targets := addTarget row e.targets })
    ⟨row.arch, [.ofTriple row]⟩

def addPlatform (row : Triple) : List PlatformEntry → List PlatformEntry :=
  changeOrAdd (fun e => e.platform == row.platform)
    (fun e => { e with archs := addArch row e.archs })
    ⟨row.platform, [⟨row.arch, [.ofTriple row]⟩]⟩

namespace Catalog

def empty : Catalog := ⟨[]⟩

def add (c : Catalog) (row : Triple) : Catalog := ⟨addPlatform row c.entries⟩

def ofTriples (rows : List Triple) : Catalog := rows.foldl add empty

def platforms (c : Catalog) : List String := c.entries.map (·.platform)

def archEntries (c : Catalog) (platform : String) : List ArchEntry :=
  ((c.entries.find? fun e => e.platform == platform).map (·.archs)).getD []

def architectures (c : Catalog) (platform : String) : List String :=
  (c.archEntries platform).map (·.arch)

/-- The builds for a pair, most preferred first. Both names are matched exactly. -/
def lookup? (c : Catalog) (platform arch : String) : Option (List Target) :=
  ((c.archEntries platform).find? fun e => e.arch == arch).map (·.targets)

def lookup (c : Catalog) (platform arch : String) : Except ResolveError (List Target) :=
  match c.lookup? platform arch with
  | none => .error (.unsupportedTarget platform arch)
  | some targets => .ok targets

def targets (c : Catalog) : List Target :=
  c.entries.flatMap fun e => e.archs.flatMap (·.targets)

def findShortId? (c : Catalog) (id : String) : Option Target :=
  c.targets.find? fun t => t.shortId == id

def findRaw? (c : Catalog) (raw : String) : Option Target :=
  c.targets.find? fun t => t.rawTriples.contains raw

end Catalog

end Prebuilt
