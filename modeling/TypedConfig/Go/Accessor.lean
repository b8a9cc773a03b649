import TypedConfig.Go.Quoted
import TypedConfig.Value.Kind

namespace TypedConfig.Go

structure AccessorParts where
  receiver : Option String
  name : String
  type : String
  kind : Option Kind
  variableName : String
  fallback : String

def conversion : Option Kind → String
  | some .string => "\t\treturn v\n"
  | some .integer =>
    "\t\tif i, err := strconv.ParseInt(v, 10, 64); err == nil \x7b\n\t\t\treturn i\n\t\t\x7d\n"
  | some .float =>
    "\t\tif f, err := strconv.ParseFloat(v, 64); err == nil \x7b\n\t\t\treturn f\n\t\t\x7d\n"
  | some .bool =>
    "\t\tif b, err := strconv.ParseBool(v); err == nil \x7b\n\t\t\treturn b\n\t\t\x7d\n"
  | some .duration =>
    "\t\tif d, err := time.ParseDuration(v); err == nil \x7b\n\t\t\treturn d\n\t\t\x7d\n"
  | _ => ""

def AccessorParts.body (a : AccessorParts) : String :=
  let fallback := "\treturn " ++ a.fallback ++ "\n"
  match a.kind with
  | some .table => "\treturn " ++ a.type ++ "\x7b\x7d\n"
  | some .array | some .tableArray =>
    "\t// Arrays cannot be overridden via environment variables.\n" ++ fallback
  | some .bytes =>
    "\tif path := os.Getenv(" ++ quote a.variableName ++ "); path != \"\" \x7b\n" ++
      "\t\tif data, err := os.ReadFile(path); err == nil \x7b\n" ++
      "\t\t\treturn data\n\t\t\x7d\n\t\x7d\n" ++
      fallback
  | some .any => fallback
  | kind =>
    "\tif v := os.Getenv(" ++ quote a.variableName ++ "); v != \"\" \x7b\n" ++ conversion kind ++
      "\t\x7d\n" ++ fallback

def AccessorParts.receiverText (a : AccessorParts) : String :=
  match a.receiver with
  | none => ""
  | some receiver => if receiver.isEmpty then "" else "(" ++ receiver ++ ") "

def AccessorParts.text (a : AccessorParts) : String :=
  "func " ++ a.receiverText ++ a.name ++ "() " ++ a.type ++ " \x7b\n" ++ a.body ++ "\x7d\n"

end TypedConfig.Go
