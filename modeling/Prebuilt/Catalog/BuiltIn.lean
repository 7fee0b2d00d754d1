import Prebuilt.Catalog

/-! The targets known without being told. Rows of one platform and architecture run from the most
preferred build to the least. -/

namespace Prebuilt

def row (platform arch : String) (abi : Option String) (raw : String) : Triple :=
  ⟨platform, arch, abi, raw⟩

def builtInTriples : List Triple := [
  row "android" "arm64" none "aarch64-linux-android",
  row "android" "arm" (some "eabi") "arm-linux-androideabi",
  row "android" "arm" (some "eabi") "armv7-linux-androideabi",
  row "android" "arm" (some "eabi") "thumbv7neon-linux-androideabi",
  row "android" "ia32" none "i686-linux-android",
  row "android" "x64" none "x86_64-linux-android",
  row "cuda" "nvptx64" none "nvptx64-nvidia-cuda",
  row "darwin" "arm64" none "aarch64-apple-darwin",
  row "darwin" "x64" none "x86_64-apple-darwin",
  row "emscripten" "asmjs" none "asmjs-unknown-emscripten",
  row "emscripten" "wasm32" none "wasm32-unknown-emscripten",
  row "freebsd" "ia32" none "i686-unknown-freebsd",
  row "freebsd" "x64" none "x86_64-unknown-freebsd",
  row "fuchsia" "arm64" none "aarch64-fuchsia",
  row "fuchsia" "x64" none "x86_64-fuchsia",
  row "illumos" "x64" none "x86_64-unknown-illumos",
  row "ios" "arm64" none "aarch64-apple-ios",
  row "ios" "arm64" (some "sim") "aarch64-apple-ios-sim",
  row "ios" "x64" none "x86_64-apple-ios",
  row "linux" "arm64" (some "gnu") "aarch64-unknown-linux-gnu",
  row "linux" "arm64" (some "musl") "aarch64-unknown-linux-musl",
  row "linux" "arm" (some "gnueabi") "arm-unknown-linux-gnueabi",
  row "linux" "arm" (some "gnueabihf") "arm-unknown-linux-gnueabihf",
  row "linux" "arm" (some "musleabi") "arm-unknown-linux-musleabi",
  row "linux" "arm" (some "musleabihf") "arm-unknown-linux-musleabihf",
  row "linux" "arm" (some "gnueabi") "armv7-unknown-linux-gnueabi",
  row "linux" "arm" (some "gnueabihf") "armv7-unknown-linux-gnueabihf",
  row "linux" "arm" (some "musleabi") "armv7-unknown-linux-musleabi",
  row "linux" "arm" (some "musleabihf") "armv7-unknown-linux-musleabihf",
  row "linux" "arm" (some "gnueabihf") "thumbv7neon-unknown-linux-gnueabihf",
  row "linux" "armv5te" (some "gnueabi") "armv5te-unknown-linux-gnueabi",
  row "linux" "armv5te" (some "musleabi") "armv5te-unknown-linux-musleabi",
  row "linux" "ia32" (some "gnu") "i586-unknown-linux-gnu",
  row "linux" "ia32" (some "musl") "i586-unknown-linux-musl",
  row "linux" "ia32" (some "gnu") "i686-unknown-linux-gnu",
  row "linux" "ia32" (some "musl") "i686-unknown-linux-musl",
  row "linux" "mips" (some "gnu") "mips-unknown-linux-gnu",
  row "linux" "mips" (some "musl") "mips-unknown-linux-musl",
  row "linux" "mips64" (some "gnuabi64") "mips64-unknown-linux-gnuabi64",
  row "linux" "mips64" (some "muslabi64") "mips64-unknown-linux-muslabi64",
  row "linux" "mips64el" (some "gnuabi64") "mips64el-unknown-linux-gnuabi64",
  row "linux" "mips64el" (some "muslabi64") "mips64el-unknown-linux-muslabi64",
  row "linux" "mipsel" (some "gnu") "mipsel-unknown-linux-gnu",
  row "linux" "mipsel" (some "musl") "mipsel-unknown-linux-musl",
  row "linux" "powerpc" (some "gnu") "powerpc-unknown-linux-gnu",
  row "linux" "powerpc64" (some "gnu") "powerpc64-unknown-linux-gnu",
  row "linux" "powerpc64le" (some "gnu") "powerpc64le-unknown-linux-gnu",
  row "linux" "riscv64gc" (some "gnu") "riscv64gc-unknown-linux-gnu",
  row "linux" "s390x" (some "gnu") "s390x-unknown-linux-gnu",
  row "linux" "sparc64" (some "gnu") "sparc64-unknown-linux-gnu",
  row "linux" "x64" (some "gnu") "x86_64-unknown-linux-gnu",
  row "linux" "x64" (some "gnux32") "x86_64-unknown-linux-gnux32",
  row "linux" "x64" (some "musl") "x86_64-unknown-linux-musl",
  row "netbsd" "x64" none "x86_64-unknown-netbsd",
  row "none" "arm64" none "aarch64-unknown-none",
  row "none" "arm64" (some "softfloat") "aarch64-unknown-none-softfloat",
  row "none" "armebv7r" (some "eabi") "armebv7r-none-eabi",
  row "none" "armebv7r" (some "eabihf") "armebv7r-none-eabihf",
  row "none" "armv7a" (some "eabi") "armv7a-none-eabi",
  row "none" "armv7r" (some "eabi") "armv7r-none-eabi",
  row "none" "armv7r" (some "eabihf") "armv7r-none-eabihf",
  row "none" "riscv32i" (some "elf") "riscv32i-unknown-none-elf",
  row "none" "riscv32imac" (some "elf") "riscv32imac-unknown-none-elf",
  row "none" "riscv32imc" (some "elf") "riscv32imc-unknown-none-elf",
  row "none" "riscv64gc" (some "elf") "riscv64gc-unknown-none-elf",
  row "none" "riscv64imac" (some "elf") "riscv64imac-unknown-none-elf",
  row "none" "thumbv6m" (some "eabi") "thumbv6m-none-eabi",
  row "none" "thumbv7em" (some "eabi") "thumbv7em-none-eabi",
  row "none" "thumbv7em" (some "eabihf") "thumbv7em-none-eabihf",
  row "none" "thumbv7m" (some "eabi") "thumbv7m-none-eabi",
  row "none" "thumbv8m.base" (some "eabi") "thumbv8m.base-none-eabi",
  row "none" "thumbv8m.main" (some "eabi") "thumbv8m.main-none-eabi",
  row "none" "thumbv8m.main" (some "eabihf") "thumbv8m.main-none-eabihf",
  row "redox" "x64" none "x86_64-unknown-redox",
  row "sunos" "sparcv9" none "sparcv9-sun-solaris",
  row "sunos" "x64" none "x86_64-pc-solaris",
  row "sunos" "x64" none "x86_64-sun-solaris",
  row "unknown" "wasm32" none "wasm32-unknown-unknown",
  row "unknown" "x64" (some "sgx") "x86_64-fortanix-unknown-sgx",
  row "wasi" "wasm32" none "wasm32-wasi",
  row "win32" "arm64" (some "msvc") "aarch64-pc-windows-msvc",
  row "win32" "ia32" (some "gnu") "i686-pc-windows-gnu",
  row "win32" "ia32" (some "msvc") "i586-pc-windows-msvc",
  row "win32" "ia32" (some "msvc") "i686-pc-windows-msvc",
  row "win32" "x64" (some "gnu") "x86_64-pc-windows-gnu",
  row "win32" "x64" (some "msvc") "x86_64-pc-windows-msvc"]

def Catalog.builtIn : Catalog := .ofTriples builtInTriples

end Prebuilt
