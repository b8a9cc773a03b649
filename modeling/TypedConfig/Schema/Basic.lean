import TypedConfig.Naming.Identifier
import TypedConfig.Go.Type
import TypedConfig.Text.Quoted

namespace TypedConfig

open Naming (Suffix)

structure Scope where
  name : Option String
  path : List String
  inArray : Bool

namespace Scope

def root : Scope := ⟨none, [], false⟩

def typeName (scope : Scope) (key : String) (suffix : Suffix) : String :=
  match scope.name with
  | none => Naming.topLevelTypeName key suffix.text
  | some parent => Naming.childTypeName parent key suffix.text

/-- The elements of an array, and all below them, differ from one element to the next. -/
def child (scope : Scope) (key : String) (suffix : Suffix) : Scope :=
  ⟨some (scope.typeName key suffix), scope.path ++ [key], scope.inArray || suffix == .item⟩

def fieldType (scope : Scope) (key : String) (value : Value) : Go.GoType :=
  match value.kind with
  | .table => .named (scope.typeName key .config)
  | .tableArray => .slice (.named (scope.typeName key .item))
  | _ => Go.GoType.ofValue value

end Scope

structure Schema where
  name : String
  path : List String
  fields : Table
  inArray : Bool

def Schema.scope (s : Schema) : Scope :=
  ⟨some s.name, s.path, s.inArray⟩

def Schema.sortedFields (s : Schema) : Table :=
  Table.sortByKey s.fields

def Schema.fieldType (s : Schema) (key : String) (value : Value) : Go.GoType :=
  s.scope.fieldType key value

structure Catalog where
  schemas : List Schema

namespace Catalog

def empty : Catalog := ⟨[]⟩

def get? (catalog : Catalog) (name : String) : Option Schema :=
  catalog.schemas.find? (·.name == name)

def contains (catalog : Catalog) (name : String) : Bool :=
  catalog.schemas.any (·.name == name)

/-- Of two types with the same name the first stays. -/
def add (catalog : Catalog) (schema : Schema) : Catalog :=
  if catalog.contains schema.name then catalog else ⟨catalog.schemas ++ [schema]⟩

def size (catalog : Catalog) : Nat :=
  catalog.schemas.length

def sorted (catalog : Catalog) : List Schema :=
  Sorting.sort (fun a b => decide (a.name ≤ b.name)) catalog.schemas

def names (catalog : Catalog) : List String :=
  catalog.sorted.map Schema.name

def followAll (catalog : Catalog) (visits : List (String × (Catalog → Catalog))) : Catalog :=
  (Table.sortByKey visits).foldl (fun catalog visit => visit.2 catalog) catalog

mutual

/-- Adds the type of a value, if it needs one, and the types below it. Nothing below a type is
visited again when its name is taken. -/
def addValue (scope : Scope) (key : String) (catalog : Catalog) : Value → Catalog
  | .table entries =>
    let child := scope.child key .config
    let name := scope.typeName key .config
    if catalog.contains name then catalog
    else
      followAll (catalog.add ⟨name, child.path, entries, child.inArray⟩) (visits child entries)
  | .array (.table entries :: _) =>
    let child := scope.child key .item
    let name := scope.typeName key .item
    if catalog.contains name then catalog
    else
      followAll (catalog.add ⟨name, child.path, entries, child.inArray⟩) (visits child entries)
  | _ => catalog

def visits (scope : Scope) : List (String × Value) → List (String × (Catalog → Catalog))
  | [] => []
  | (key, value) :: rest =>
    (key, fun catalog => addValue scope key catalog value) :: visits scope rest

end

def addEntries (scope : Scope) (catalog : Catalog) (entries : Table) : Catalog :=
  followAll catalog (visits scope entries)

def collect (tree : Table) : Catalog :=
  addEntries .root empty tree

end Catalog
end TypedConfig
