import TypedConfig.CommandLine.Command
import TypedConfig.Console.Table
import TypedConfig.Diff.Files
import TypedConfig.Watch.Run

namespace TypedConfig.CommandLine

structure Terminal where
  output : String
  errors : String
  session : Session

inductive UnexpectedError where
  | generation (error : GenerationError)
  | access (error : AccessError)
  /-- A size was to be read from an option without a value. -/
  | noSize
  /-- A path was to be made of an option or operand without a value. -/
  | noPath
  deriving DecidableEq, Repr

def UnexpectedError.message : UnexpectedError → String
  | .generation error => error.message
  | .access error => error.message
  | .noSize => "no size is given"
  | .noPath => "no path is given"

inductive Failure where
  | reported (message : String)
  | unexpected (error : UnexpectedError)
  deriving DecidableEq, Repr

structure Conclusion where
  status : Nat
  output : String
  errors : String
  records : List Log.Record
  store : FileStore

def programVersion : String := "0.1.0"

def successTag : String := "[/bold green]"
def errorTag : String := "[/bold red]"
def pathTag : String := "[/cyan]"

def Failure.ofError (e : GenerationError) : Failure :=
  if e.isExpected then .reported ("Error: " ++ e.message) else .unexpected (.generation e)

def Failure.ofStart : Watch.StartError → Failure
  | .unwatchable e => .reported ("Error: " ++ e.message)
  | .inaccessible e => .unexpected (.access e)

def validationMessage (errors : List Options.FieldError) : String :=
  "Invalid options: " ++ toString errors.length ++ " validation error" ++
    if errors.length = 1 then "" else "s"

def given (error : UnexpectedError) : Option String → Except Failure String
  | some text => .ok text
  | none => .error (.unexpected error)

namespace GenerateArguments

def fieldOf : Option String → Options.FieldValue
  | some text => .text text
  | none => .other

def fields (a : GenerateArguments) (input output : String) (maxFileSize : Nat) : Options.Fields :=
  [("input_file", .text input), ("output_file", .text output),
    ("package_name", fieldOf a.package), ("enable_env", .truth a.overrides),
    ("max_file_size", .integer maxFileSize), ("mode", fieldOf a.mode),
    ("format_source", .truth a.formats)]

/-- The size is read first, then the paths are made, and then everything is checked at once. -/
def options (a : GenerateArguments) : Except Failure GenerateOptions := do
  let size ← (FileSize.parse (← given .noSize a.maxFileSize)).mapError fun e =>
    .reported ("Error: invalid --max-file-size: " ++ e.message)
  let input ← given .noPath a.input
  let output ← given .noPath a.output
  (GenerateOptions.ofFields (a.fields input output size)).mapError fun errors =>
    .reported (validationMessage errors)

end GenerateArguments

section

variable {m : Type → Type} [Monad m]

abbrev Act (m : Type → Type) := ExceptT Failure (StateT Terminal m)

def print (text : String) : Act m Unit :=
  modify fun t => { t with output := t.output ++ text }

def printLine (text : String) : Act m Unit :=
  print (Console.shown text ++ "\n")

def warn (message : String) : Act m Unit :=
  modify fun t => { t with errors := t.errors ++ Console.shown message ++ "\n" }

def summary (o : GenerateOptions) (written : Path) : Console.Table :=
  .ofPairs (programName ++ " generate")
    [("Input", o.inputFile.text), ("Output", written.text), ("Package", o.resolvedPackageName),
      ("Mode", o.mode.name), ("Env overrides", if o.overrides then "on" else "off")]

def runGenerate (host : Host) (a : GenerateArguments) : Act m Unit := do
  let options ← MonadExcept.ofExcept a.options
  if options.formatsSource && host.formatter.isNone then
    warn "gofmt not found on PATH; writing unformatted output"
  let (result, session) := (options.run host).run (← get).session
  modify fun t => { t with session }
  let written ← MonadExcept.ofExcept (result.mapError Failure.ofError)
  printLine (Console.beforeTag successTag ("Generated " ++ written.text))
  print (summary options written).text

def follow (records : List Log.Record) (r : Watch.Run) : Act m Unit :=
  modify fun t => { t with session := ⟨r.store, records ++ r.coordinator.journal⟩ }

abbrev Loop (m : Type → Type) := Terminal → Watch.Setting → Watch.Run → m Watch.Run

def runWatch (host : Host) (loop : Loop m) (a : GenerateArguments)
    (debounce : Option Int) : Act m Unit := do
  let options ← MonadExcept.ofExcept a.options
  let debounceField := (debounce.map Options.FieldValue.integer).getD .other
  let watchOptions ← MonadExcept.ofExcept
    ((WatchOptions.ofFields [("debounce_ms", debounceField)]).mapError fun errors =>
      Failure.reported (validationMessage errors))
  printLine (Console.beforeTag pathTag ("Watching " ++ options.inputFile.text) ++
    " (press Ctrl+C to stop)")
  let session := (← get).session
  let setting := options.watchSetting host fun _ => none
  let (first, after) := options.generateFirst watchOptions host session.store
  modify fun t => { t with session := { after with journal := session.journal ++ after.journal } }
  let first ← MonadExcept.ofExcept (first.mapError Failure.ofError)
  let (started, run) := first.start setting
  follow session.journal run
  MonadExcept.ofExcept (started.mapError Failure.ofStart)
  let run ← liftM (loop (← get) setting run)
  follow session.journal (run.stop setting)
  print "Stopped watching\n"

def runDiff (first second : Option String) (keysOnly : Bool) (format : ReportFormat) :
    Act m Unit := do
  let store := (← get).session.store
  let first ← MonadExcept.ofExcept (given .noPath first)
  let second ← MonadExcept.ofExcept (given .noPath second)
  let report ← MonadExcept.ofExcept ((Diff.files store first second).mapError Failure.ofError)
  let text ← MonadExcept.ofExcept <|
    match format with
    | .json => .ok report.jsonText
    | .text => (report.text keysOnly).mapError fun e =>
      Failure.unexpected (.generation (.number e))
  print (Console.shownUnbroken text)

def Command.run (host : Host) (loop : Loop m) : Command → Act m Unit
  | .generate a => runGenerate host a
  | .watch a debounce => runWatch host loop a debounce
  | .diff first second keysOnly format => runDiff first second keysOnly format
  | .version => print (programName ++ " " ++ programVersion ++ "\n")

def Invocation.threshold (i : Invocation) (environment : Override.Environment) : Nat :=
  let fromEnvironment := environment.lookup Log.thresholdVariable
  let asked :=
    match i.logLevel, i.command with
    | none, .watch .. => if (fromEnvironment.getD "").isEmpty then some "INFO" else none
    | level, _ => level.join
  (Log.Setup.ofNames asked fromEnvironment).threshold

def Refusal.conclusion (store : FileStore) : Refusal → Conclusion
  | .help g => ⟨0, g.usage ++ "\n", "", [], store⟩
  | .misuse g message =>
    ⟨2, "", g.usage ++ "\n" ++ g.program ++ ": error: " ++ message ++ "\n", [], store⟩

def run (host : Host) (loop : Loop m) (store : FileStore) (arguments : List String) :
    m (Except UnexpectedError Conclusion) := do
  match Invocation.ofArguments arguments with
  | .error refusal => return .ok (refusal.conclusion store)
  | .ok invocation =>
    let act : Act m Unit := invocation.command.run host loop
    let (result, t) ← act.run.run ⟨"", "", ⟨store, []⟩⟩
    let records := Log.atLeast (invocation.threshold host.environment) t.session.journal
    let conclude (status : Nat) (errors : String) : Conclusion :=
      ⟨status, t.output, errors, records, t.session.store⟩
    match result with
    | .ok _ => return .ok (conclude 0 t.errors)
    | .error (.reported message) =>
      return .ok (conclude 1 (t.errors ++
        Console.shown (Console.beforeTag errorTag message) ++ "\n"))
    | .error (.unexpected e) => return .error e

end

end TypedConfig.CommandLine
