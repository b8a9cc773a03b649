import TypedConfig.Value.Basic

namespace TypedConfig.Toml

abbrev Path := List String

/-- Changes the table at the end of a path, creating the tables on the way that are missing.
With `throughArrays` an array on the way stands for its last table; anything else that is no
table blocks the way. -/
def modifyAt (throughArrays : Bool) (change : Table → Option Table) :
    Path → Table → Option Table
  | [], table => change table
  | key :: path, table =>
    match table.lookup key with
    | none => do
      let child ← modifyAt throughArrays change path []
      return table.insert key (.table child)
    | some (.table child) => do
      let child ← modifyAt throughArrays change path child
      return table.insert key (.table child)
    | some (.array items) =>
      match throughArrays, items.getLast? with
      | true, some (.table child) => do
        let child ← modifyAt throughArrays change path child
        return table.insert key (.array (items.dropLast ++ [.table child]))
      | _, _ => none
    | some _ => none

def addNew (key : String) (value : Value) (table : Table) : Option Table :=
  match table.lookup key with
  | none => some (table ++ [(key, value)])
  | some _ => none

def splitLast (path : Path) : Path × String :=
  (path.dropLast, path.getLast?.getD "")

def addAt (throughArrays : Bool) (path : Path) (value : Value) (table : Table) : Option Table :=
  let (parent, key) := splitLast path
  modifyAt throughArrays (addNew key value) parent table

def openTable (path : Path) (table : Table) : Option Table :=
  modifyAt true some path table

def appendTable (key : String) (table : Table) : Option Table :=
  match table.lookup key with
  | none => some (table ++ [(key, .array [.table []])])
  | some (.array items) => some (table.insert key (.array (items ++ [.table []])))
  | some _ => none

def appendTableAt (path : Path) (table : Table) : Option Table :=
  let (parent, key) := splitLast path
  modifyAt true (appendTable key) parent table

def isSealed (sealedPaths : List Path) (path : Path) : Bool :=
  sealedPaths.any (·.isPrefixOf path)

end TypedConfig.Toml
