import TypedConfig.Value.Kind

namespace TypedConfig.Go

inductive GoType where
  | string | int64 | float64 | bool | duration | byte | any | struct
  | named (name : String)
  | slice (element : GoType)
  deriving DecidableEq, Repr

def GoType.text : GoType → String
  | .string => "string"
  | .int64 => "int64"
  | .float64 => "float64"
  | .bool => "bool"
  | .duration => "time.Duration"
  | .byte => "byte"
  | .any => "any"
  | .struct => "struct"
  | .named name => name
  | .slice element => "[]" ++ element.text

def GoType.ofStringKind : Kind → GoType
  | .bytes => .slice .byte
  | .duration => .duration
  | _ => .string

/-- The type of a value on its own. The first element of an array speaks for all of them. -/
def GoType.ofValue : Value → GoType
  | .string text => ofStringKind (Value.stringKind text)
  | .integer _ => .int64
  | .float _ => .float64
  | .boolean _ => .bool
  | .moment _ => .any
  | .array [] => .slice .any
  | .array (first :: _) => .slice (ofValue first)
  | .table _ => .struct
  | .absent => .any

end TypedConfig.Go
