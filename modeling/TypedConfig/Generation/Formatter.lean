import TypedConfig.Generation.Generator
import TypedConfig.Text.Blank
import TypedConfig.Text.LineEnd

namespace TypedConfig

/-- What the formatter does with a source: it ends with a status and two texts, or it never
ends. One that is found but cannot be started, or that prints what is no text, is left out. -/
inductive Formatter where
  | hangs
  | ends (status : Int) (output report : String)

namespace Formatter

def defaultTimeout : Int := 30

/-- The formatter's output; it counts only if the formatter ends well and in time. It needs some
time. -/
def run (formatter : Formatter) (timeout : Int) : Except FormatError String :=
  if timeout ≤ 0 then .error (.timedOut timeout)
  else
    match formatter with
    | .hangs => .error (.timedOut timeout)
    | .ends 0 output _ => .ok (Text.readLines output)
    | .ends _ _ report => .error (.rejected (Text.trim (Text.readLines report)))

end Formatter

def formatSource (formatter : Option Formatter) (timeout : Int) (source : String) :
    Action String := do
  match formatter with
  | none =>
    Action.report [⟨.debug, "gofmt not found on PATH, skipping formatting"⟩]
    return source
  | some formatter => Action.fromExcept .format (formatter.run timeout)

end TypedConfig
