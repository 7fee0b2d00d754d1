import Prebuilt.PackageName

/-! Errors as they are shown. A failure is a text and the texts of what caused it; a report is an
error with what was wrapped around it, what was being done when it was made, and the backtrace if one
was asked for. -/

namespace Prebuilt

/-- `causes` runs from the nearest cause to the last one. -/
structure Failure where
  text : String
  causes : List String
  deriving DecidableEq

def Failure.chain (f : Failure) : List String := f.text :: f.causes

def Failure.because (text : String) (cause : Failure) : Failure := ⟨text, cause.chain⟩

class Shown (ε : Type) where
  failure : ε → Failure

instance : Shown Failure := ⟨id⟩

/-- What decides on the backtrace of a report: what a variable of the environment says about
backtraces, if it is set, and how one reads that is taken where the report is made. -/
structure Tracing where
  asked : Option String := none
  trace : String := ""

/-- Whatever the variable says, but for zero, asks for a backtrace. -/
def Tracing.taken (t : Tracing) : Option String :=
  if t.asked.any (· ≠ "0") then some t.trace else none

/-- Texts wrapped around an error, the last one first; the messages in force when the report was
made, outermost first; and the backtrace, if one was taken then. Wrapping leaves these alone. -/
structure Report (ε : Type) where
  wraps : List String
  error : ε
  context : List String
  backtrace : Option String

namespace Report

variable {ε : Type} [Shown ε]

def new (error : ε) (context : List String) (tracing : Tracing := {}) : Report ε :=
  ⟨[], error, context, tracing.taken⟩

def wrap (r : Report ε) (text : String) : Report ε := { r with wraps := text :: r.wraps }

/-- The wraps, last one first, and then the error's own chain. -/
def chain (r : Report ε) : List String := r.wraps ++ (Shown.failure r.error).chain

def title (r : Report ε) : String := r.chain.headD ""

/-- The backtrace stands behind an empty line, under a heading of its own. -/
def backtraceText : Option String → String
  | none => ""
  | some trace => "\n\nBacktrace:\n" ++ trace

/-- The outermost text, a line for each further one, and a line for each message in force, the
innermost first; and behind them the backtrace. -/
def render (r : Report ε) : String :=
  String.join (r.title :: (r.chain.drop 1).map (fun cause => "\n  caused by: " ++ cause) ++
    r.context.reverse.map fun message => "\n  while " ++ message) ++ backtraceText r.backtrace

end Report

/-- Why a package could not be had: nothing of that name is installed, or what is installed
cannot be loaded. -/
inductive PackageError where
  | notFound (name : PackageName)
  | broken (name : PackageName) (cause : Failure)
  deriving DecidableEq

def PackageError.failure : PackageError → Failure
  | .notFound name => ⟨"package " ++ name.text ++ " is not installed", []⟩
  | .broken name cause =>
    .because ("package " ++ name.text ++ " is installed but could not be loaded") cause

instance : Shown PackageError := ⟨PackageError.failure⟩

/-- Why no binding was resolved: nothing is built for the pair, no candidate is present, or the
first one present cannot be loaded. -/
inductive ResolveError where
  | unsupportedTarget (platform arch : String)
  | bindingNotFound (attempted : List String)
  | resolution (candidate : String) (cause : Failure)
  deriving DecidableEq

namespace ResolveError

def unsupportedText (platform arch : String) : String :=
  "unsupported target: no native bindings are built for platform " ++ quote platform ++
    ", architecture " ++ quote arch

def notFoundText (attempted : List String) : String :=
  "cannot find native binding; tried:\n" ++
    String.intercalate "\n" (attempted.map fun a => "  " ++ a)

def resolutionText (candidate : String) : String :=
  "found native binding " ++ candidate ++ ", but failed to load it"

def failure : ResolveError → Failure
  | unsupportedTarget platform arch => ⟨unsupportedText platform arch, []⟩
  | bindingNotFound attempted => ⟨notFoundText attempted, []⟩
  | resolution candidate cause => .because (resolutionText candidate) cause

def message (e : ResolveError) : String := e.failure.text

end ResolveError

instance : Shown ResolveError := ⟨ResolveError.failure⟩

end Prebuilt
