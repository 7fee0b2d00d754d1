import Prebuilt.FileSystem
import Prebuilt.NativeHost

/-! A file system that changes while one process searches it and loads from it. The process's
loader gives back a library that is still open under the very name asked for, whatever has become
of the file. -/

namespace Prebuilt

structure Machine where
  files : FileSystem
  cwd : Place
  loaded : List (Path × Binding)
  opened : List Binding

namespace Machine

def start (files : FileSystem) (cwd : Place) : Machine := ⟨files, cwd, [], []⟩

/-- The disk as it is now, with the loader's memory of what is open. -/
def disk (m : Machine) : Disk :=
  { m.files.disk m.cwd with
    library := fun path =>
      match m.opened.find? fun b => b.path.loaderName = path.loaderName with
      | some b => some b.library
      | none => m.files.libraryAt m.cwd path }

def host (m : Machine) : NativeHost := ⟨m.disk, m.loaded, m.opened⟩

def leave (m : Machine) (host : NativeHost) : Machine :=
  { m with loaded := host.loaded, opened := host.opened }

/-- A fresh host on the same machine: nothing is kept, but what is open stays open. -/
def renewHost (m : Machine) : Machine := { m with loaded := [] }

def write (m : Machine) (path : Path) (e : FileEntry) : Machine :=
  { m with files := m.files.write m.cwd path e }

def remove (m : Machine) (path : Path) : Bool × Machine :=
  match m.files.remove? m.cwd path with
  | some files => (true, { m with files := files })
  | none => (false, m)

end Machine

end Prebuilt
