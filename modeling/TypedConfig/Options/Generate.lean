import TypedConfig.Options.Field
import TypedConfig.Options.FileSize
import TypedConfig.Options.PackageName
import TypedConfig.Emission.Emitter
import TypedConfig.Files.Reference

namespace TypedConfig

open Options (Fields FieldFault FieldError FieldValue readField errorOf)

structure GenerateOptions where
  inputFile : Path
  outputFile : Path
  packageName : String
  overrides : Bool
  maxFileSize : Int
  mode : Mode
  formatsSource : Bool

namespace GenerateOptions

def resolvedPackageName (o : GenerateOptions) : String :=
  if o.packageName.isEmpty then PackageName.infer o.outputFile else o.packageName

def inputDirectory (o : GenerateOptions) : Path :=
  o.inputFile.parent

def readMode : FieldValue → Except FieldFault Mode
  | .text s =>
    match Mode.ofName? s with
    | some mode => .ok mode
    | none => .error .notAMember
  | _ => .error .notAMember

def readOutput (v : FieldValue) : Except FieldFault Path := do
  let path ← Options.readPath v
  if path.text = "." then throw .notAllowed
  return path

/-- All settings, or everything that is wrong with them. -/
def ofFields (fields : Fields) : Except (List FieldError) GenerateOptions :=
  let input := readField fields "input_file" Options.readPath (some (Path.ofText "config.toml"))
  let output := readField fields "output_file" readOutput none
  let package := readField fields "package_name" Options.readString (some "")
  let overrides := readField fields "enable_env" Options.readTruth (some true)
  let size := readField fields "max_file_size" (Options.readAtLeast 1)
    (some (Loader.defaultLimit : Int))
  let mode := readField fields "mode" readMode (some .static)
  let formats := readField fields "format_source" Options.readTruth (some false)
  match input, output, package, overrides, size, mode, formats with
  | .ok input, .ok output, .ok package, .ok overrides, .ok size, .ok mode, .ok formats =>
    .ok ⟨input, output, package, overrides, size, mode, formats⟩
  | _, _, _, _, _, _, _ =>
    .error (errorOf input ++ errorOf output ++ errorOf package ++ errorOf overrides ++
      errorOf size ++ errorOf mode ++ errorOf formats)

def isSwitchedOn (text : String) : Bool :=
  ["1", "true", "yes"].contains text.toLower

def environmentFields (lookUp : String → Option String) : Except FileSize.SizeError Fields := do
  let set (name : String) : Option String := (lookUp name).filter (!·.isEmpty)
  let field (asked name : String) (read : String → FieldValue) : Fields :=
    ((set asked).map fun text => (name, read text)).toList
  let size ←
    match set "CONFGEN_MAX_FILE_SIZE" with
    | none => pure []
    | some text => do pure [("max_file_size", FieldValue.integer (← FileSize.parse text))]
  return field "CONFGEN_INPUT" "input_file" .text ++
    field "CONFGEN_OUTPUT" "output_file" .text ++
    field "CONFGEN_PACKAGE" "package_name" .text ++
    field "CONFGEN_MODE" "mode" .text ++
    field "CONFGEN_NO_ENV" "enable_env" (fun text => .truth !isSwitchedOn text) ++
    size ++
    field "CONFGEN_GOFMT" "format_source" (fun text => .truth (isSwitchedOn text))

end GenerateOptions
end TypedConfig
