import Prebuilt.Disk
import Prebuilt.Event
import Prebuilt.Manifest

/-! Installed packages. From each root the search goes up through the path as it is written and
looks into the modules directory at every step; a package is there if its manifest is a file. -/

namespace Prebuilt

def modulesDir : Path := ⟨"node_modules"⟩

def manifestName : Path := ⟨"package.json"⟩

namespace PackageName

/-- Every directory the package might be in, in the order in which they are looked at. -/
def places (name : PackageName) (roots : List Path) : List Path :=
  roots.flatMap fun root => root.ancestors.map fun dir => name.below (dir.join modulesDir)

theorem places_singleton (name : PackageName) (root : Path) :
    name.places [root] = root.ancestors.map fun dir => name.below (dir.join modulesDir) := by
  simp [places]

end PackageName

namespace Disk

def hasManifest (disk : Disk) (dir : Path) : Bool := disk.isFile (dir.join manifestName)

/-- The first of the directories that holds a manifest, and what is logged on the way: one event
for each directory looked at. -/
def firstInstalled (disk : Disk) (name : PackageName) : List Path → Option Path × List Event
  | [] => (none, [])
  | dir :: dirs =>
    if disk.hasManifest dir then (some dir, [.looking name dir])
    else
      let (found, events) := disk.firstInstalled name dirs
      (found, .looking name dir :: events)

theorem firstInstalled_fst (disk : Disk) (name : PackageName) (dirs : List Path) :
    (disk.firstInstalled name dirs).1 = dirs.find? disk.hasManifest := by
  induction dirs with
  | nil => rfl
  | cons dir dirs ih =>
    by_cases h : disk.hasManifest dir = true
    · simp [firstInstalled, h]
    · simp [firstInstalled, h, ih]

def findPackage (disk : Disk) (name : PackageName) (roots : List Path) :
    Option Path × List Event :=
  disk.firstInstalled name (name.places roots)

end Disk

end Prebuilt
