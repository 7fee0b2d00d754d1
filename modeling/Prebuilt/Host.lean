import Prebuilt.Event

/-! The outside world as a search sees it, and computations that ask it. A host answers questions
and may change while it does; a session keeps what was asked, with the messages in force at the
time, and what was logged. -/

namespace Prebuilt

/-- An answer, what was logged while it was worked out, and the host afterwards. -/
structure Reply (η α : Type) where
  value : α
  host : η
  events : List Event

class Host (η : Type) (β : outParam Type) where
  platform : η → String
  arch : η → String
  isFile : η → Path → Reply η Bool
  loadFile : η → Path → Reply η (Except Failure β)
  loadPackage : η → PackageName → List Path → Reply η (Except PackageError β)

inductive Question where
  | platform
  | arch
  | isFile (path : Path)
  | loadFile (path : Path)
  | loadPackage (name : PackageName) (roots : List Path)
  deriving DecidableEq

/-- `context` holds the messages in force, outermost first. -/
structure Call where
  question : Question
  context : List String
  deriving DecidableEq

structure Outcome (η α : Type) where
  value : α
  host : η
  calls : List Call
  events : List Event

@[ext] structure Session (η α : Type) where
  run : List String → η → Outcome η α

namespace Session

variable {η α β : Type}

instance : Monad (Session η) where
  pure a := ⟨fun _ host => ⟨a, host, [], []⟩⟩
  bind s f := ⟨fun context host =>
    let first := s.run context host
    let second := (f first.value).run context first.host
    ⟨second.value, second.host, first.calls ++ second.calls, first.events ++ second.events⟩⟩

@[simp] theorem run_pure (a : α) (context : List String) (host : η) :
    (pure a : Session η α).run context host = ⟨a, host, [], []⟩ := rfl

theorem run_bind (s : Session η α) (f : α → Session η β) (context : List String) (host : η) :
    (s >>= f).run context host =
      ⟨((f (s.run context host).value).run context (s.run context host).host).value,
        ((f (s.run context host).value).run context (s.run context host).host).host,
        (s.run context host).calls ++
          ((f (s.run context host).value).run context (s.run context host).host).calls,
        (s.run context host).events ++
          ((f (s.run context host).value).run context (s.run context host).host).events⟩ := rfl

def ask (question : Question) (answer : η → Reply η α) : Session η α :=
  ⟨fun context host =>
    let reply := answer host
    ⟨reply.value, reply.host, [⟨question, context⟩], reply.events⟩⟩

def log (event : Event) : Session η Unit := ⟨fun _ host => ⟨(), host, [], [event]⟩⟩

def currentContext : Session η (List String) := ⟨fun context host => ⟨context, host, [], []⟩⟩

def within (message : String) (s : Session η α) : Session η α :=
  ⟨fun context host => s.run (context ++ [message]) host⟩

@[simp] theorem run_ask (question : Question) (answer : η → Reply η α) (context : List String)
    (host : η) :
    (ask question answer).run context host =
      ⟨(answer host).value, (answer host).host, [⟨question, context⟩], (answer host).events⟩ := rfl

@[simp] theorem run_log (event : Event) (context : List String) (host : η) :
    (log event).run context host = ⟨(), host, [], [event]⟩ := rfl

@[simp] theorem run_currentContext (context : List String) (host : η) :
    (currentContext : Session η (List String)).run context host = ⟨context, host, [], []⟩ := rfl

@[simp] theorem run_within (message : String) (s : Session η α) (context : List String)
    (host : η) : (within message s).run context host = s.run (context ++ [message]) host := rfl

variable [Host η β]

def platform : Session η String := ask .platform fun host => ⟨Host.platform host, host, []⟩

def arch : Session η String := ask .arch fun host => ⟨Host.arch host, host, []⟩

def isFile (path : Path) : Session η Bool := ask (.isFile path) fun host => Host.isFile host path

def loadFile (path : Path) : Session η (Except Failure β) :=
  ask (.loadFile path) fun host => Host.loadFile host path

def loadPackage (name : PackageName) (roots : List Path) : Session η (Except PackageError β) :=
  ask (.loadPackage name roots) fun host => Host.loadPackage host name roots

end Session

end Prebuilt
