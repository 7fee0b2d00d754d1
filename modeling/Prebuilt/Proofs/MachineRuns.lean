import Prebuilt.Machine
import Prebuilt.Proofs.Cache

/-! A host on a machine whose files change. What happens to the machine is a run of the host, each
operation on the disk as it is then, so what is known of such runs is known of the machine. What the
loader has open it has for good, whatever becomes of the file. -/

namespace Prebuilt

/-- What happens to a machine while one host is on it. -/
inductive Machine.Step where
  | write (path : Path) (e : FileEntry)
  | remove (path : Path)
  | perform (operation : Operation)

theorem NativeHost.Yields.opened_grows {host after : NativeHost} {key : Path} {b : Binding}
    (h : host.Yields key b after) : host.opened <+: after.opened := by
  cases h with
  | kept => exact List.prefix_rfl
  | opened => exact List.prefix_append _ _

theorem Turn.opened_grows (t : Turn) : t.before.opened <+: t.after.opened := by
  rcases t.yields_or_fails with ⟨-, hh⟩ | ⟨a, b, key, -, -, hy⟩
  · exact hh ▸ List.prefix_rfl
  · exact hy.opened_grows

namespace Machine

def after (m : Machine) : Step → Machine
  | .write path e => m.write path e
  | .remove path => (m.remove path).2
  | .perform operation => m.leave (operation.perform m.host).2

def run (m : Machine) (steps : List Step) : Machine := steps.foldl after m

/-- The operations that are performed, each with the disk as it is then. -/
def schedule : Machine → List Step → List (Disk × Operation)
  | _, [] => []
  | m, .perform operation :: steps =>
    (m.disk, operation) :: (m.after (.perform operation)).schedule steps
  | m, .write path e :: steps => (m.after (.write path e)).schedule steps
  | m, .remove path :: steps => (m.after (.remove path)).schedule steps

/-- The operations that are performed, each with the machine's host as it is then. -/
def turns : Machine → List Step → List Turn
  | _, [] => []
  | m, .perform operation :: steps =>
    ⟨m.host, operation⟩ :: (m.after (.perform operation)).turns steps
  | m, .write path e :: steps => (m.after (.write path e)).turns steps
  | m, .remove path :: steps => (m.after (.remove path)).turns steps

/-- The host has kept what the machine's host has, on whatever disk. -/
structure Hosts (m : Machine) (host : NativeHost) : Prop where
  loaded : host.loaded = m.loaded
  opened : host.opened = m.opened

variable {m : Machine} {host : NativeHost}

theorem hosts_host (m : Machine) : m.Hosts m.host := ⟨rfl, rfl⟩

theorem Hosts.onDisk (h : m.Hosts host) : host.onDisk m.disk = m.host := by
  rw [NativeHost.onDisk, h.loaded, h.opened]
  rfl

theorem Hosts.write (h : m.Hosts host) (path : Path) (e : FileEntry) :
    (m.after (.write path e)).Hosts host := ⟨h.loaded, h.opened⟩

theorem Hosts.remove (h : m.Hosts host) (path : Path) : (m.after (.remove path)).Hosts host := by
  have hremove : (m.after (.remove path)).loaded = m.loaded ∧
      (m.after (.remove path)).opened = m.opened := by
    simp only [after, Machine.remove]
    cases m.files.remove? m.cwd path <;> exact ⟨rfl, rfl⟩
  exact ⟨h.loaded.trans hremove.1.symm, h.opened.trans hremove.2.symm⟩

theorem hosts_perform (m : Machine) (operation : Operation) :
    (m.after (.perform operation)).Hosts (Turn.mk m.host operation).after := ⟨rfl, rfl⟩

/-- A run of the machine is the run of its host on the disks that it meets. -/
theorem Hosts.run (h : m.Hosts host) (steps : List Step) :
    m.turns steps = host.turns (m.schedule steps) ∧
      (m.run steps).Hosts (host.afterAll (m.schedule steps)) := by
  induction steps generalizing m host with
  | nil => exact ⟨rfl, h⟩
  | cons step steps ih =>
    cases step with
    -- Files change between the operations only, and the next one brings its disk along.
    | write path e => exact ih (h.write path e)
    | remove path => exact ih (h.remove path)
    | perform operation =>
      have hh := ih (m.hosts_perform operation)
      rw [← h.onDisk] at hh
      refine ⟨?_, hh.2⟩
      rw [turns, schedule, NativeHost.turns, ← hh.1, h.onDisk]

theorem opened_grows (m : Machine) (step : Step) : m.opened <+: (m.after step).opened := by
  cases step with
  | write path e => exact List.prefix_rfl
  | remove path =>
    have hh := (m.hosts_host.remove path).opened
    exact hh ▸ List.prefix_rfl
  | perform operation => exact (Turn.mk m.host operation).opened_grows

theorem opened_grows_run (m : Machine) (steps : List Step) :
    m.opened <+: (m.run steps).opened := by
  induction steps generalizing m with
  | nil => exact List.prefix_rfl
  | cons step steps ih => exact (m.opened_grows step).trans (ih (m.after step))

/-- What the loader gives for a name that it has open stays the same, whatever is done to the files and
whatever is loaded besides. -/
theorem library_of_opened {path : Path} {b : Binding}
    (h : m.opened.find? (fun b => b.path.loaderName = path.loaderName) = some b)
    (steps : List Step) : (m.run steps).disk.library path = some b.library := by
  obtain ⟨more, hmore⟩ := m.opened_grows_run steps
  have hfind : (m.run steps).opened.find? (fun b => b.path.loaderName = path.loaderName) =
      some b := by
    rw [← hmore, List.find?_append, h, Option.some_or]
  simp only [disk, hfind]

/-- Once a machine has a fresh host, each binding that is given out has the canonical path that its
artifact had then, and is kept for it; and no canonical path is opened twice. -/
theorem run_keeps_bindings (m : Machine) (steps : List Step) :
    (∀ t ∈ m.renewHost.turns steps, ∀ a b, t.answer = some (a, b) →
      t.key? a = some b.path ∧ (m.renewHost.run steps).host.cached? b.path = some b) ∧
    ∃ opened, (m.renewHost.run steps).opened = m.opened ++ opened ∧
      (opened.map fun b => b.path).Nodup := by
  have ht : m.renewHost.host.Tidy m.opened := NativeHost.tidy_fresh m.disk m.opened
  obtain ⟨hturns, hhosts⟩ := m.renewHost.hosts_host.run steps
  refine ⟨fun t hmem a b ha => ?_, ?_⟩
  · rw [hturns] at hmem
    obtain ⟨hkey, hkept⟩ := ht.answer_kept hmem ha
    refine ⟨hkey, ?_⟩
    rw [NativeHost.cached?, hhosts.loaded] at hkept
    exact hkept
  · rw [← hhosts.opened]
    exact (ht.afterAll _).opened_once

end Machine

end Prebuilt
