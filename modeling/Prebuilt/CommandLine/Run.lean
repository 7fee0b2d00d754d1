import Prebuilt.Catalog.Listing
import Prebuilt.CommandLine.Request
import Prebuilt.NativeHost
import Prebuilt.Resolution

/-! What the program prints for a request, and the status it ends with. -/

namespace Prebuilt

/-- What a command comes to: all that was logged, shown or not, and a report exactly when it fails. -/
structure Upshot where
  output : String
  logged : List Event
  report : Option (Report ResolveError)

def Upshot.failed (logged : List Event) (report : Report ResolveError) : Upshot :=
  ⟨"", logged, some report⟩

structure Finish extends Upshot where
  verbosity : Verbosity

/-- At a verbosity a report has the messages in force if it lets them pass. -/
def Upshot.seenAt (u : Upshot) (v : Verbosity) : Finish where
  output := u.output
  logged := u.logged
  report := u.report.map fun r =>
    { r with context := r.context.filter fun _ => v.passes purposeLevel }
  verbosity := v

namespace Finish

def status (f : Finish) : Nat := if f.report.isSome then 1 else 0

/-- The events that are shown. -/
def events (f : Finish) : List Event := f.logged.filter f.verbosity.shows

def log (c : Colour) (f : Finish) (t : Terminal) : List String :=
  t.lines c f.verbosity.shows f.logged

def messages (c : Colour) (f : Finish) (t : Terminal := {}) : List String :=
  f.log c t ++ f.report.toList.map fun report => "Error: " ++ report.render

end Finish

namespace Command

def targetsOutput (platform : Option String) (json : Bool) : String :=
  let listed := Catalog.builtIn.targets.filter fun t => platform.all (· == t.platform)
  if json then listingText listed ++ "\n"
  else String.join (listed.map fun t =>
    tableLine t.shortId (String.intercalate " " t.rawTriples))

def candidatesOutput (plan : List Candidate) : String :=
  String.join (plan.map fun c => tableLine c.target.shortId c.attempt.text)

def resolvedOutput (r : Resolved Binding) : String :=
  r.target.shortId ++ " " ++ r.binding.path.text ++ "\n"

def finish (disk : Disk) (tracing : Tracing) : Command → Upshot
  | targets platform json => ⟨targetsOutput platform json, [], none⟩
  | candidates search =>
    let o := (search.candidates Catalog.builtIn).run [] (NativeHost.mk disk [] [])
    match o.value with
    | .ok plan => ⟨candidatesOutput plan, o.events, none⟩
    | .error e => .failed o.events (.new e [] tracing)
  | resolve search =>
    let o := (search.resolveReport Catalog.builtIn tracing).run [] (NativeHost.mk disk [] [])
    let logged := .running hostPlatform hostArch :: o.events
    match o.value with
    | .ok resolved => ⟨resolvedOutput resolved, logged, none⟩
    | .error report => .failed logged report

end Command

/-- Carry out a request, as it is seen at its verbosity. -/
def Request.run (r : Request) (disk : Disk) (tracing : Tracing := {}) : Finish :=
  (r.command.finish disk tracing).seenAt r.verbosity

def versionText : String := "nativebind 0.0.1\n"

end Prebuilt
