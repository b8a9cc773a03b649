import TypedConfig.Files.Writing
import TypedConfig.Generation.Formatter
import TypedConfig.Options.Generate

namespace TypedConfig

structure Host where
  environment : Override.Environment
  formatter : Option Formatter

namespace GenerateOptions

def generator (o : GenerateOptions) : Generator where
  package := o.resolvedPackageName
  mode := o.mode
  overrides := o.overrides
  inputDirectory := some o.inputDirectory
  limit := o.maxFileSize
  variablePrefix := Naming.defaultVariablePrefix

def readInput (o : GenerateOptions) : Action ByteArray := do
  match (← get).store.content o.inputFile with
  | .ok content => return content
  | .error .notFound => throw (.parse o.inputFile.text .missing)
  | .error .nullByte => throw .nullByte
  | .error fault => throw (.parse o.inputFile.text (.unreadable fault))

def writeOutput (o : GenerateOptions) (source : String) : Action Path := do
  let session ← get
  let (written, store) := (FileStore.writeAtomic o.outputFile source.toUTF8).run session.store
  set { session with store }
  Action.fromExcept
    (fun e => if e.fault = .nullByte then .nullByte else .unwritable o.outputFile e) written

/-- Generates the file that the settings describe and returns where it was written. -/
def run (o : GenerateOptions) (host : Host) : Action Path := do
  let data ← o.readInput
  let source ← o.generator.generate host.environment (.bytes data) o.inputFile.text
  let source ←
    if o.formatsSource then formatSource host.formatter Formatter.defaultTimeout source
    else pure source
  let written ← o.writeOutput source
  Action.report [⟨.info, "Generated " ++ written.text ++ " from " ++ o.inputFile.text ++ " (" ++
    o.mode.name ++ " mode)"⟩]
  return written

end GenerateOptions
end TypedConfig
