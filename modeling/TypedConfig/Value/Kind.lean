import TypedConfig.Value.Basic
import TypedConfig.Duration.Basic

namespace TypedConfig

inductive Kind where
  | string | integer | float | bool | duration | bytes | table | tableArray | array | any
  deriving DecidableEq, Repr

def Kind.name : Kind → String
  | .string => "string"
  | .integer => "integer"
  | .float => "float"
  | .bool => "bool"
  | .duration => "duration"
  | .bytes => "bytes"
  | .table => "table"
  | .tableArray => "table_array"
  | .array => "array"
  | .any => "any"

def Kind.all : List Kind :=
  [.string, .integer, .float, .bool, .duration, .bytes, .table, .tableArray, .array, .any]

def Kind.ofName? (name : String) : Option Kind :=
  Kind.all.find? (·.name == name)

def referenceMarker : List Char := ['f', 'i', 'l', 'e', ':']

def isReference (text : String) : Bool :=
  referenceMarker.isPrefixOf text.toList

inductive Meaning where
  | reference
  | duration (nanoseconds : Int)
  | plain
  deriving DecidableEq, Repr

namespace Value

def meaning (text : String) : Meaning :=
  if TypedConfig.isReference text then .reference
  else
    match Duration.parse text with
    | .ok nanoseconds => .duration nanoseconds
    | .error _ => .plain

def stringKind (text : String) : Kind :=
  match meaning text with
  | .reference => .bytes
  | .duration _ => .duration
  | .plain => .string

def isTableArray : Value → Bool
  | .array (.table _ :: _) => true
  | _ => false

def kind : Value → Kind
  | .string text => stringKind text
  | .integer _ => .integer
  | .float _ => .float
  | .boolean _ => .bool
  | .moment _ => .any
  | .array (.table _ :: _) => .tableArray
  | .array _ => .array
  | .table _ => .table
  | .absent => .any

def isReference : Value → Bool
  | .string text => TypedConfig.isReference text
  | _ => false

def isDuration : Value → Bool
  | .string text => Duration.isDuration text
  | _ => false

mutual

def containsDuration : Value → Bool
  | .array items => itemsContainDuration items
  | .table entries => entriesContainDuration entries
  | v => v.kind == .duration

def itemsContainDuration : List Value → Bool
  | [] => false
  | v :: rest => v.containsDuration || itemsContainDuration rest

def entriesContainDuration : List (String × Value) → Bool
  | [] => false
  | (_, v) :: rest => v.containsDuration || entriesContainDuration rest

end

end Value
end TypedConfig
