import TypedConfig.Emission.Build
import TypedConfig.Naming.Variable

namespace TypedConfig

inductive Mode where
  | static | getter
  deriving DecidableEq, Repr

def Mode.name : Mode → String
  | .static => "static"
  | .getter => "getter"

def Mode.ofName? (name : String) : Option Mode :=
  [Mode.static, Mode.getter].find? (·.name == name)

structure Emitter where
  mode : Mode
  package : String
  variablePrefix : String

namespace Emitter

open Go (Declaration Accessor Variable Package GoType)

variable {σ : Type} [FileSystem σ]

def recordType (schema : Schema) : Declaration :=
  .record schema.name (schema.sortedFields.map fun f =>
    ⟨Naming.pascalCase f.1, schema.fieldType f.1 f.2⟩)

/-- Types behind accessors have no fields, except those of array elements, which an accessor of
the type could not tell apart. -/
def typeDeclaration (mode : Mode) (schema : Schema) : Declaration :=
  match mode with
  | .static => recordType schema
  | .getter => if schema.inArray then recordType schema else .placeholder schema.name

def accessorPackages : Kind → List Package
  | .string | .duration | .bytes => [.os]
  | .integer | .float | .bool => [.os, .strconv]
  | _ => []

/-- The accessor of a value, its variable named for the path of the value. -/
def accessor (e : Emitter) (store : σ) (scope : Scope) (key : String) (value : Value) :
    Build Declaration := do
  let fallback ←
    match value with
    | .table _ => pure none
    | _ => some <$> Build.field store scope key value
  let kind := value.kind
  (accessorPackages kind).forM Build.require
  return .accessor {
    receiver := scope.name
    name := Naming.pascalCase key
    type := scope.fieldType key value
    kind
    variableName :=
      Naming.variableName e.variablePrefix ((scope.path ++ [key]).map Naming.Step.key)
    fallback }

def methods (e : Emitter) (store : σ) (schema : Schema) : Build (List Declaration) :=
  if schema.inArray then return []
  else schema.sortedFields.mapM fun f => e.accessor store schema.scope f.1 f.2

def assignment (store : σ) (key : String) (value : Value) : Build Variable := do
  let name := Naming.pascalCase key
  match value with
  | .array [] => return ⟨name, some (GoType.ofValue value), none⟩
  | _ =>
    let literal ← Build.field store .root key value
    let type := match literal with
      | .record .. | .records .. => none
      | _ => some (GoType.ofValue value)
    return ⟨name, type, some literal⟩

def staticValues (store : σ) (tree : Table) : Build (List Declaration) := do
  let members ← (Table.sortByKey tree).mapM fun entry => assignment store entry.1 entry.2
  return [.group members]

def getterValues (e : Emitter) (store : σ) (tree : Table) : Build (List Declaration) := do
  let entries := Table.sortByKey tree
  let leaves := entries.filter fun entry => !entry.2.isTable
  let accessors ← leaves.mapM fun entry => e.accessor store .root entry.1 entry.2
  let instances := (entries.filter (·.2.isTable)).map fun entry =>
    (⟨Naming.pascalCase entry.1, some (.named (Scope.root.typeName entry.1 .config)), none⟩ :
      Variable)
  return accessors ++ if instances.isEmpty then [] else [.group instances]

def emit (e : Emitter) (store : σ) (tree : Table) (catalog : Catalog) :
    Build Go.SourceFile := do
  let schemas := catalog.sorted
  let types := schemas.map (typeDeclaration e.mode)
  let methods ←
    match e.mode with
    | .static => pure []
    | .getter => schemas.mapM (e.methods store)
  let values ←
    match e.mode with
    | .static => staticValues store tree
    | .getter => e.getterValues store tree
  if Value.entriesContainDuration tree then Build.require .time
  let packages := (← get).packages
  return ⟨e.package, Package.all.filter (packages.contains ·),
    types ++ methods.flatten ++ values⟩

end Emitter
end TypedConfig
