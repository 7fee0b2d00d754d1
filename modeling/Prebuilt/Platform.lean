import Prebuilt.Catalog.BuiltIn

/-! What the running system is called in the catalog's vocabulary, and how its shared libraries
end. -/

namespace Prebuilt

def platformName (os : String) : String :=
  match os with
  | "macos" => "darwin"
  | "windows" => "win32"
  | "solaris" => "sunos"
  | "" => "unknown"
  | other => other

/-- The catalog's name for a processor. The byte order tells some apart; one depends on the
system as well. -/
def archName (arch os : String) (littleEndian : Bool) : String :=
  match arch with
  | "x86_64" => "x64"
  | "x86" => "ia32"
  | "aarch64" => "arm64"
  | "riscv64" => "riscv64gc"
  | "powerpc64" => if littleEndian then "powerpc64le" else arch
  | "mips" => if littleEndian then "mipsel" else arch
  | "mips64" => if littleEndian then "mips64el" else arch
  | "sparc64" => if os = "solaris" then "sparcv9" else arch
  | other => other

def hostPlatform : String := platformName "linux"

def hostArch : String := archName "x86_64" "linux" true

def nativeExtension (platform : String) : String :=
  match platform with
  | "win32" => "dll"
  | "darwin" | "ios" => "dylib"
  | "emscripten" | "wasi" | "unknown" => "wasm"
  | _ => "so"

end Prebuilt
