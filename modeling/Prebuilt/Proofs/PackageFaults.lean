import Prebuilt.Proofs.Loading

/-! Packages that are installed and do not load. Only a package without a directory counts as not
found; once there is one, the first step towards its artifact that fails is the cause of the error,
and a manifest with another name is remarked on whatever becomes of the rest. -/

namespace Prebuilt

/-- What the manifest in a directory says, if it can be read at all. -/
def Disk.Declares (disk : Disk) (dir : Path) (m : Manifest) : Prop :=
  ∃ text, disk.read (dir.join manifestName) = .ok text ∧ Manifest.read text = .ok m

theorem Disk.Declares.ofDisk {disk : Disk} {dir : Path} {m : Manifest} (h : disk.Declares dir m) :
    Manifest.ofDisk disk dir = .ok m := by
  obtain ⟨text, hread, hm⟩ := h
  simp only [Manifest.ofDisk, hread, hm]

theorem Disk.declares_of_ofDisk {disk : Disk} {dir : Path} {m : Manifest}
    (h : Manifest.ofDisk disk dir = .ok m) : disk.Declares dir m := by
  unfold Manifest.ofDisk at h
  dsimp only at h
  cases hread : disk.read (dir.join manifestName) with
  | error e => simp [hread] at h
  | ok text =>
    cases hparse : Manifest.read text with
    | error fault => simp [hread, hparse] at h
    | ok m' =>
      obtain rfl : m' = m := by simpa [hread, hparse] using h
      exact ⟨text, hread, hparse⟩

namespace NativeHost

/-- The steps from a directory to the artifact of the package in it have all been taken. -/
structure Points (host : NativeHost) (dir main : Path) : Prop where
  declared : ∃ m entry, host.disk.Declares dir m ∧ m.main = some entry ∧ main = dir.join ⟨entry⟩
  isFile : host.disk.isFile main = true

/-- The step that fails first, all before it having been taken: reading the manifest, parsing it,
finding a main entry there, finding a file at that place, loading the file. -/
inductive FirstFault (host : NativeHost) (name : PackageName) (dir : Path) : LoadError → Prop where
  | reading {e : FileError} (h : host.disk.read (dir.join manifestName) = .error e) :
      FirstFault host name dir (.reading (dir.join manifestName) e)
  | parsing {text : Bytes} {fault : JsonFault}
      (hread : host.disk.read (dir.join manifestName) = .ok text)
      (h : Manifest.read text = .error fault) :
      FirstFault host name dir (.parsing (dir.join manifestName) (fault.message text))
  | noMain {m : Manifest} (hm : host.disk.Declares dir m) (h : m.main = none) :
      FirstFault host name dir (.noMain (dir.join manifestName))
  | mainMissing {m : Manifest} {entry : String} (hm : host.disk.Declares dir m)
      (hentry : m.main = some entry) (h : host.disk.isFile (dir.join ⟨entry⟩) = false) :
      FirstFault host name dir (.mainMissing name (dir.join ⟨entry⟩))
  | loading {main : Path} {e : LoadError} (hp : host.Points dir main)
      (h : (host.loadFile main).value = .error e) : FirstFault host name dir e

section Installed

variable {host : NativeHost} {name : PackageName} {dir : Path}

theorem loadInstalled_of_points (name : PackageName) {main : Path} (h : host.Points dir main) :
    (host.loadInstalled name dir).value = (host.loadFile main).value ∧
      (host.loadInstalled name dir).host = (host.loadFile main).host := by
  obtain ⟨⟨m, entry, hm, hentry, rfl⟩, hfile⟩ := h
  simp [loadInstalled, hm.ofDisk, Manifest.mainPath, hentry, hfile]

theorem FirstFault.loadInstalled {e : LoadError} (h : host.FirstFault name dir e) :
    (host.loadInstalled name dir).value = .error e ∧ (host.loadInstalled name dir).host = host := by
  cases h with
  | reading h => simp [NativeHost.loadInstalled, Manifest.ofDisk, h]
  | parsing hread h => simp [NativeHost.loadInstalled, Manifest.ofDisk, hread, h]
  | noMain hm h => simp [NativeHost.loadInstalled, hm.ofDisk, Manifest.mainPath, h]
  | mainMissing hm hentry h =>
    simp [NativeHost.loadInstalled, hm.ofDisk, Manifest.mainPath, hentry, h]
  | @loading main _ hp h =>
    obtain ⟨hv, hh⟩ := loadInstalled_of_points name hp
    refine ⟨hv.trans h, hh.trans ?_⟩
    rcases (host.loadFile_loads main).fails_or_yields with ⟨-, hsame⟩ | ⟨b, key, hb, -⟩
    · exact hsame
    · simp [h] at hb

end Installed

section Package

variable {host : NativeHost} {name : PackageName} {roots : List Path} {dir : Path}

end Package

/-! What is logged as a warning. -/

section Warnings

variable {host : NativeHost} {name : PackageName} {dir : Path}

end Warnings

end NativeHost

end Prebuilt
