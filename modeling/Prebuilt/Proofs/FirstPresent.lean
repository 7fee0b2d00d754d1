import Prebuilt.Host.Fixed
import Prebuilt.Proofs.Walk

/-! A search on a host whose answers do not change. The first candidate that is present decides,
whether or not it loads, and nothing is asked about the candidates after it. -/

namespace Prebuilt

/-- The question whether an attempt is there at all. A package is loaded in the same breath. -/
def Attempt.inquiry (roots : List Path) : Attempt → Question
  | .package name => .loadPackage name roots
  | .file path => .isFile path

def Attempt.opening : Attempt → List Question
  | .package _ => []
  | .file path => [.loadFile path]

namespace FixedHost

variable {β : Type}

/-- A file is there when the host says so, a package unless the host finds none of its name. -/
def isPresent (h : FixedHost β) (roots : List Path) : Attempt → Bool
  | .package name =>
    match h.loadPackage name roots with
    | .error (.notFound _) => false
    | _ => true
  | .file path => h.isFile path

def load (h : FixedHost β) (roots : List Path) : Attempt → Except Failure β
  | .package name => (h.loadPackage name roots).mapError PackageError.failure
  | .file path => h.loadFile path

theorem run_probe_absent {h : FixedHost β} {roots : List Path} {a : Attempt}
    (ha : h.isPresent roots a = false) (context : List String) :
    (a.probe roots).run context h = ⟨.absent, h, [⟨a.inquiry roots, context⟩], []⟩ := by
  cases a with
  | package name =>
    rw [run_probe_package]
    change (⟨Presence.ofPackage (h.loadPackage name roots), h, _, []⟩ : Outcome _ _) = _
    cases hl : h.loadPackage name roots with
    | ok binding => simp [isPresent, hl] at ha
    | error e =>
      cases e with
      | notFound missing => rfl
      | broken broken cause => simp [isPresent, hl] at ha
  | file path => exact run_probe_file_absent ha roots context

theorem run_probe_present {h : FixedHost β} {roots : List Path} {a : Attempt}
    (ha : h.isPresent roots a = true) (context : List String) :
    (a.probe roots).run context h =
      ⟨.ofLoad (h.load roots a), h,
        ⟨a.inquiry roots, context⟩ :: a.opening.map (⟨·, context⟩), []⟩ := by
  cases a with
  | package name =>
    rw [run_probe_package]
    change (⟨Presence.ofPackage (h.loadPackage name roots), h, _, []⟩ : Outcome _ _) = _
    cases hl : h.loadPackage name roots with
    | ok binding =>
      rw [load, hl]
      rfl
    | error e =>
      cases e with
      | notFound missing => simp [isPresent, hl] at ha
      | broken broken cause =>
        rw [load, hl]
        rfl
  | file path => exact run_probe_file_present ha roots context

section Walk

variable {h : FixedHost β} {roots : List Path} {before : List Candidate}

end Walk

end FixedHost

end Prebuilt
