import Prebuilt.Host

/-! Hosts that answer the same question the same way every time, whatever the answer, and log
nothing. -/

namespace Prebuilt

/-- Answers as functions of the question alone. -/
structure FixedHost (β : Type) where
  platform : String
  arch : String
  isFile : Path → Bool
  loadFile : Path → Except Failure β
  loadPackage : PackageName → List Path → Except PackageError β

instance {β : Type} : Host (FixedHost β) β where
  platform h := h.platform
  arch h := h.arch
  isFile h path := ⟨h.isFile path, h, []⟩
  loadFile h path := ⟨h.loadFile path, h, []⟩
  loadPackage h name roots := ⟨h.loadPackage name roots, h, []⟩

end Prebuilt
