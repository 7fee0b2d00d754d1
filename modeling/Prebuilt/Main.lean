import Prebuilt.CommandLine.Survey

/-! The program: it reads its arguments, looks at the disk as far as the request needs it, and
prints what the request comes to. It takes no backtraces and keeps no debugging log. -/

namespace Prebuilt

def FileError.ofCode (code : UInt32) (words : String) : FileError :=
  match code.toNat with
  | 2 => .notFound
  | 20 => .notDirectory
  | 21 => .isDirectory
  | 36 => .nameTooLong
  | 40 => .tooManyLinks
  | n => .other words n

def FileError.ofSystem : IO.Error → FileError
  | .noFileOrDirectory _ code words => ofCode code words
  | .inappropriateType _ code words => ofCode code words
  | .invalidArgument _ code words => ofCode code words
  | .permissionDenied _ code words => ofCode code words
  | .resourceExhausted _ code words => ofCode code words
  | .otherError code words => ofCode code words
  | e => .other e.toString 0

def attempted {α : Type} (action : IO α) : IO (Except FileError α) :=
  try return .ok (← action)
  catch e => return .error (.ofSystem e)

/-- Look at one path. The system's calls would end a path at a NUL, so such a path never gets
there. -/
def look (path : Path) : IO Sighting := do
  if path.chars.contains '\x00' then
    return ⟨path, false, .error .nulInPath, .error .nulInPath⟩
  let canonical ← attempted (IO.FS.realPath path.text)
  let content ← attempted (IO.FS.readBinFile path.text)
  let isFile ← match canonical with
    | .error _ => pure false
    | .ok real => do
      match ← attempted real.metadata with
      | .ok about => pure (about.type == .file)
      | .error _ => pure false
  return ⟨path, isFile, content.map ByteArray.toList, canonical.map fun real => ⟨real.toString⟩⟩

def survey (command : Command) : (rounds : Nat) → Survey → IO Survey
  | 0, seen => return seen
  | rounds + 1, seen => do
    let more ← (command.unseen seen).mapM look
    survey command rounds (seen ++ more)

/-- The stream for messages: colours go to a terminal, pictures into a locale that has them. -/
def terminal : IO Terminal := do
  let stderr ← IO.getStderr
  let language := ((← IO.getEnv "LANG").getD "").toUpper
  return { colours := ← stderr.isTty, pictures := language.endsWith "UTF-8" }

def perform (request : Request) : IO UInt32 := do
  let seen ← survey request.command Command.rounds []
  let finish := request.run seen.disk
  IO.print finish.output
  for message in finish.messages request.colour (← terminal) do
    IO.eprintln message
  return finish.status.toUInt32

def usageText : String := "Usage: nativebind [OPTIONS] <COMMAND>"

end Prebuilt

open Prebuilt in
def main (args : List String) : IO UInt32 := do
  match Request.ofArgs args with
  | .error .version =>
    IO.print versionText
    return 0
  | .error (.usage _) =>
    IO.eprintln usageText
    return 2
  | .ok request => perform request
