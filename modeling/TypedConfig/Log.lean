import TypedConfig.Text.Upper

namespace TypedConfig.Log

inductive Level where
  | debug | info | warning | error
  deriving DecidableEq, Repr

def Level.number : Level → Nat
  | .debug => 10
  | .info => 20
  | .warning => 30
  | .error => 40

def Level.name : Level → String
  | .debug => "DEBUG"
  | .info => "INFO"
  | .warning => "WARNING"
  | .error => "ERROR"

structure Record where
  level : Level
  message : String
  deriving DecidableEq, Repr

def atLeast (threshold : Nat) (records : List Record) : List Record :=
  records.filter fun r => threshold ≤ r.level.number

def thresholds : List (String × Nat) :=
  [("NOTSET", 0), ("DEBUG", 10), ("INFO", 20), ("WARN", 30), ("WARNING", 30), ("ERROR", 40),
    ("FATAL", 50), ("CRITICAL", 50)]

def threshold (name : Option String) : Nat :=
  match name with
  | none => Level.warning.number
  | some name => (thresholds.lookup (Text.upper name)).getD Level.warning.number

def thresholdVariable : String := "CONFGEN_LOG_LEVEL"

def chooseName (asked fromEnvironment : Option String) : Option String :=
  match asked with
  | some name => if name.isEmpty then fromEnvironment.filter (!·.isEmpty) else some name
  | none => fromEnvironment.filter (!·.isEmpty)

structure Setup where
  threshold : Nat
  showsPlaces : Bool
  watcherThreshold : Nat
  deriving DecidableEq, Repr

def Setup.ofNames (asked fromEnvironment : Option String) : Setup :=
  let threshold := Log.threshold (chooseName asked fromEnvironment)
  let debugging := threshold ≤ Level.debug.number
  ⟨threshold, debugging, if debugging then 0 else Level.warning.number⟩

end TypedConfig.Log
