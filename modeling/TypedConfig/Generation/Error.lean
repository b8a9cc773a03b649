import TypedConfig.Emission.Build
import TypedConfig.Override.Basic
import TypedConfig.Toml.Scan

namespace TypedConfig

inductive ParseCause where
  | malformed
  | notUtf8
  | missing
  | unreadable (fault : Fault)
  deriving DecidableEq, Repr

def ParseCause.detail : ParseCause → String
  | .malformed => ": not a TOML document"
  | .notUtf8 => ": not valid UTF-8"
  | .missing => ": file does not exist"
  | .unreadable fault => ": " ++ fault.reason

inductive FormatError where
  | timedOut (seconds : Int)
  | rejected (report : String)
  deriving DecidableEq, Repr

def FormatError.message : FormatError → String
  | .timedOut seconds => "gofmt timed out after " ++ toString seconds ++ "s"
  | .rejected report => "gofmt failed: " ++ report

inductive GenerationError where
  | parse (source : String) (cause : ParseCause)
  | number (error : Decimal.LimitError)
  | override (error : Override.OverrideError)
  | reference (error : ReferenceError)
  | invalidMode (mode : String)
  | format (error : FormatError)
  | unwritable (path : Path) (error : AccessError)
  | nullByte
  deriving DecidableEq, Repr

namespace GenerationError

def message : GenerationError → String
  | .parse source cause => "failed to parse TOML " ++ source ++ cause.detail
  | .number error => error.message
  | .override error => error.message
  | .reference error => error.message
  | .invalidMode mode =>
    "invalid mode " ++ Text.shown mode ++ ": must be 'static' or 'getter'"
  | .format error => error.message
  | .unwritable path error =>
    "failed to write output file " ++ path.text ++ ": " ++ error.message
  | .nullByte => Fault.nullByte.reason

/-- Whether the error is one of those that a run is prepared for. Numbers with too many digits
and paths that cannot be passed to the system are not. -/
def isExpected : GenerationError → Bool
  | .number _ | .nullByte | .reference .nullByte | .reference (.notReference _) => false
  | _ => true

def ofBuild : BuildError → GenerationError
  | .reference error => .reference error
  | .number error => .number error

def ofDecode (source : String) : Toml.DecodeError → GenerationError
  | .malformed => .parse source .malformed
  | .tooManyDigits error => .number error

end GenerationError
end TypedConfig
