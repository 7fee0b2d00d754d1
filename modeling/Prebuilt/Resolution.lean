import Prebuilt.Host

/-! Resolving a binding: candidates are tried in the order of the plan, the first one present
decides, and a candidate that is present and does not load is an error at once. -/

namespace Prebuilt

structure Resolved (β : Type) where
  binding : β
  target : Target
  attempt : Attempt

inductive Presence (β : Type) where
  | absent
  | loaded (binding : β)
  | broken (cause : Failure)

variable {η β : Type} [Host η β]

def Attempt.probe (roots : List Path) : Attempt → Session η (Presence β)
  | .package name => do
    match ← Session.loadPackage name roots with
    | .ok binding => pure (.loaded binding)
    | .error (.notFound _) => pure .absent
    | .error e => pure (.broken e.failure)
  | .file path => do
    if ← Session.isFile path then
      match ← Session.loadFile path with
      | .ok binding => pure (.loaded binding)
      | .error cause => pure (.broken cause)
    else pure .absent

/-- Try candidates in order; `attempted` lists those already found absent. -/
def walk (roots : List Path) (attempted : List String) :
    List Candidate → Session η (Except ResolveError (Resolved β))
  | [] => pure (.error (.bindingNotFound attempted))
  | candidate :: rest => do
    Session.log (.trying candidate.attempt candidate.target)
    match ← candidate.attempt.probe roots with
    | .absent => walk roots (attempted ++ [candidate.attempt.text]) rest
    | .broken cause => pure (.error (.resolution candidate.attempt.text cause))
    | .loaded binding => do
      Session.log (.loaded candidate.attempt candidate.target)
      pure (.ok ⟨binding, candidate.target, candidate.attempt⟩)

namespace Search

/-- The pair to resolve for: the one the search names, or the host's own. -/
def pair (s : Search) : Session η (String × String) :=
  match s.target with
  | some target => pure target
  | none => do
    let platform ← Session.platform
    let arch ← Session.arch
    pure (platform, arch)

/-- Everything `resolve` would try, in the order in which it would try it. -/
def candidates (s : Search) (catalog : Catalog) :
    Session η (Except ResolveError (List Candidate)) := do
  let (platform, arch) ← s.pair
  pure (s.plan catalog platform arch)

def walkPlan (s : Search) (catalog : Catalog) (platform arch : String) :
    Session η (Except ResolveError (Resolved β)) :=
  match s.plan catalog platform arch with
  | .error e => pure (.error e)
  | .ok candidates => walk [s.dir] [] candidates

def purpose (platform arch : String) : String :=
  "resolving native binding for " ++ platform ++ "/" ++ arch

def resolve (s : Search) (catalog : Catalog) : Session η (Except ResolveError (Resolved β)) := do
  let (platform, arch) ← s.pair
  Session.within (purpose platform arch) (s.walkPlan catalog platform arch)

/-- The same, with a failure made into a report while its purpose is in force. -/
def resolveReport (s : Search) (catalog : Catalog) (tracing : Tracing := {}) :
    Session η (Except (Report ResolveError) (Resolved β)) := do
  let (platform, arch) ← s.pair
  Session.within (purpose platform arch) do
    match ← s.walkPlan catalog platform arch with
    | .ok resolved => pure (.ok resolved)
    | .error e => do
      let context ← Session.currentContext
      pure (.error (.new e context tracing))

end Search

end Prebuilt
