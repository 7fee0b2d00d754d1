import Prebuilt.Host
import Prebuilt.Installed

/-! The host that looks at a disk and loads libraries. A library loaded by path or as a package is
kept under its canonical path, and asking for it again gives the same binding. -/

namespace Prebuilt

/-- A library that has been opened. Bindings are told apart by their serial numbers. -/
structure Binding where
  serial : Nat
  path : Path
  library : Library
  deriving DecidableEq

inductive LoadError where
  | resolving (path : Path) (cause : FileError)
  | loading (path : Path)
  | reading (manifest : Path) (cause : FileError)
  | parsing (manifest : Path) (fault : String)
  | noMain (manifest : Path)
  | mainMissing (name : PackageName) (main : Path)

def LoadError.failure : LoadError → Failure
  | resolving path cause => ⟨"resolving " ++ path.text, [cause.text]⟩
  | loading path => ⟨"loading " ++ path.text, [loaderWords]⟩
  | reading manifest cause => ⟨"reading " ++ manifest.text, [cause.text]⟩
  | parsing manifest fault => ⟨"parsing " ++ manifest.text, [fault]⟩
  | noMain manifest => ⟨manifest.text ++ " has no \"main\" entry", []⟩
  | mainMissing name main =>
    ⟨name.text ++ " points at " ++ main.text ++ ", which doesn't exist", []⟩

namespace Binding

/-- A symbol may be given with a NUL at its end; inside it there is none. The empty name stands for
no symbol. -/
def exports (b : Binding) (symbol : String) : Bool :=
  let cs := symbol.toList
  let name := if cs.getLast? = some '\x00' then cs.dropLast else cs
  name ≠ [] && b.library.symbols.contains (String.ofList name)

def symbolFailure (b : Binding) (symbol : String) : Failure :=
  ⟨"looking up " ++ quote symbol ++ " in " ++ b.path.text, [loaderWords]⟩

end Binding

namespace Manifest

def ofDisk (disk : Disk) (dir : Path) : Except LoadError Manifest :=
  let path := dir.join manifestName
  match disk.read path with
  | .error e => .error (.reading path e)
  | .ok text =>
    match read text with
    | .error fault => .error (.parsing path (fault.message text))
    | .ok manifest => .ok manifest

def mainPath (m : Manifest) (dir : Path) : Except LoadError Path :=
  match m.main with
  | some main => .ok (dir.join ⟨main⟩)
  | none => .error (.noMain (dir.join manifestName))

/-- Logged when the manifest names itself differently from where it is installed. -/
def nameEvents (m : Manifest) (name : PackageName) (dir : Path) : List Event :=
  match m.name with
  | some declared => if declared = name.text then [] else [.misnamed dir name declared]
  | none => []

end Manifest

/-- `loaded` holds what is kept, each binding under the canonical path it was loaded from, the
latest first; `opened` lists every library opened so far, the latest last. -/
structure NativeHost where
  disk : Disk
  loaded : List (Path × Binding) := []
  opened : List Binding := []

namespace NativeHost

abbrev Loading := Reply NativeHost (Except LoadError Binding)

def openLibrary (host : NativeHost) (path : Path) : Loading :=
  match host.disk.library path with
  | none => ⟨.error (.loading path), host, []⟩
  | some library =>
    let binding : Binding := ⟨host.opened.length, path, library⟩
    ⟨.ok binding, { host with opened := host.opened ++ [binding] }, []⟩

def cached? (host : NativeHost) (key : Path) : Option Binding := host.loaded.lookup key

/-- Load the library at a canonical path, or give the binding that is kept for it. -/
def loadCanonical (host : NativeHost) (key : Path) : Loading :=
  match host.cached? key with
  | some binding => ⟨.ok binding, host, [.alreadyLoaded key]⟩
  | none =>
    let reply := host.openLibrary key
    match reply.value with
    | .error _ => reply
    | .ok binding =>
      { reply with host := { reply.host with loaded := (key, binding) :: reply.host.loaded } }

def loadFile (host : NativeHost) (path : Path) : Loading :=
  match host.disk.canonical path with
  | .error e => ⟨.error (.resolving path e), host, []⟩
  | .ok key => host.loadCanonical key

def loadInstalled (host : NativeHost) (name : PackageName) (dir : Path) : Loading :=
  match Manifest.ofDisk host.disk dir with
  | .error e => ⟨.error e, host, []⟩
  | .ok manifest =>
    let named := manifest.nameEvents name dir
    match manifest.mainPath dir with
    | .error e => ⟨.error e, host, named⟩
    | .ok main =>
      if host.disk.isFile main then
        let reply := host.loadFile main
        { reply with events := named ++ reply.events }
      else ⟨.error (.mainMissing name main), host, named⟩

def loadPackage (host : NativeHost) (name : PackageName) (roots : List Path) :
    Reply NativeHost (Except PackageError Binding) :=
  match host.disk.findPackage name roots with
  | (none, looked) => ⟨.error (.notFound name), host, looked⟩
  | (some dir, looked) =>
    let reply := host.loadInstalled name dir
    ⟨reply.value.mapError fun e => .broken name e.failure, reply.host,
      looked ++ .found name dir :: reply.events⟩

def probe (host : NativeHost) (path : Path) : Reply NativeHost Bool :=
  let present := host.disk.isFile path
  ⟨present, host, [.probed path present]⟩

instance : Host NativeHost Binding where
  platform _ := hostPlatform
  arch _ := hostArch
  isFile := probe
  loadFile host path :=
    let reply := host.loadFile path
    ⟨reply.value.mapError LoadError.failure, reply.host, reply.events⟩
  loadPackage := loadPackage

end NativeHost

end Prebuilt
