import TypedConfig.Binary64.Basic
import TypedConfig.Calendar.Moment
import TypedConfig.Sorting

namespace TypedConfig

/-- A table keeps its keys in the order of their first appearance. `absent` is what no
configuration file can state. -/
inductive Value where
  | string (text : String)
  | integer (n : Int)
  | float (x : Binary64)
  | boolean (b : Bool)
  | moment (m : Calendar.Moment)
  | array (items : List Value)
  | table (entries : List (String × Value))
  | absent

abbrev Table := List (String × Value)

namespace Value

def isTable : Value → Bool
  | .table _ => true
  | _ => false

def entries : Value → Table
  | .table entries => entries
  | _ => []

end Value

namespace Table

def keys (t : Table) : List String :=
  t.map Prod.fst

section

variable {α : Type}

def keyLe (a b : String × α) : Bool :=
  decide (a.1 ≤ b.1)

def sortByKey (entries : List (String × α)) : List (String × α) :=
  Sorting.sort keyLe entries

end

def insert (key : String) (value : Value) : Table → Table
  | [] => [(key, value)]
  | (k, v) :: rest => if k = key then (k, value) :: rest else (k, v) :: insert key value rest

end Table

end TypedConfig
