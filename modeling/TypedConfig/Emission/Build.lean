import TypedConfig.Files.Reference
import TypedConfig.Go.Source
import TypedConfig.Schema.Basic

namespace TypedConfig

inductive BuildError where
  | reference (error : ReferenceError)
  | number (error : Decimal.LimitError)
  deriving DecidableEq, Repr

def BuildError.message : BuildError → String
  | .reference error => error.message
  | .number error => error.message

structure Progress where
  loader : Loader
  packages : List Go.Package

abbrev Build := ExceptT BuildError (StateM Progress)

namespace Build

variable {σ : Type} [FileSystem σ]

def require (package : Go.Package) : Build Unit :=
  modify fun p => { p with packages := p.packages ++ [package] }

def load (store : σ) (reference : String) : Build ByteArray := do
  let progress ← get
  let (content, loader) := (Loader.load store reference).run progress.loader
  set { progress with loader }
  MonadExcept.ofExcept (content.mapError .reference)

def string (store : σ) (text : String) : Build Go.Literal := do
  match Value.meaning text with
  | .reference => return .bytes (← load store text).toList
  | .duration nanoseconds =>
    require .time
    return .duration nanoseconds
  | .plain => return .string text

def integer (n : Int) : Build Go.Literal := do
  let _ ← MonadExcept.ofExcept ((Decimal.writeInt n).mapError .number)
  return .integer n

def float (x : Binary64) : Build Go.Literal := do
  match x with
  | .finite _ => return .float x
  | _ =>
    require .math
    return .float x

mutual

/-- The literal of a value that needs no record type. Tables among the elements of an array and
values without a type of their own become `nil`. -/
def literal (store : σ) : Value → Build Go.Literal
  | .string text => string store text
  | .integer n => integer n
  | .float x => float x
  | .boolean b => return .boolean b
  | .moment _ => return .nil
  | .array [] => return .nil
  | .array (.table _ :: _) => return .nil
  | .array (first :: rest) => do
    let keepsStrings := first.kind == .string
    let firstLiteral ← element store keepsStrings first
    let others ← elements store keepsStrings rest
    return .slice (Go.GoType.ofValue first) (firstLiteral :: others)
  | .table _ => return .nil
  | .absent => return .nil

def element (store : σ) (keepsStrings : Bool) : Value → Build Go.Literal
  | .string text => if keepsStrings then return .string text else string store text
  | v => literal store v

def elements (store : σ) (keepsStrings : Bool) : List Value → Build (List Go.Literal)
  | [] => return []
  | v :: rest => do
    let first ← element store keepsStrings v
    let others ← elements store keepsStrings rest
    return first :: others

end

def inKeyOrder (steps : List (String × Build Go.Literal)) :
    Build (List (String × Go.Literal)) :=
  (Table.sortByKey steps).mapM fun step => do
    return (Naming.pascalCase step.1, ← step.2)

mutual

def field (store : σ) (scope : Scope) (key : String) : Value → Build Go.Literal
  | .table entries => do
    let fields ← inKeyOrder (steps store (scope.child key .config) entries)
    return .record (some (scope.typeName key .config)) fields
  | .array items =>
    if Value.isTableArray (.array items) then do
      let elements ← records store (scope.child key .item) items
      return .records (scope.typeName key .item) elements
    else literal store (.array items)
  | v => literal store v

def steps (store : σ) (scope : Scope) :
    List (String × Value) → List (String × Build Go.Literal)
  | [] => []
  | (key, value) :: rest => (key, field store scope key value) :: steps store scope rest

def records (store : σ) (scope : Scope) : List Value → Build (List Go.Literal)
  | [] => return []
  | .table entries :: rest => do
    let fields ← inKeyOrder (steps store scope entries)
    let others ← records store scope rest
    return .record none fields :: others
  | _ :: rest => records store scope rest

end

end Build
end TypedConfig
