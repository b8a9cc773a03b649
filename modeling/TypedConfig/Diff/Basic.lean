import TypedConfig.Value.Equality

namespace TypedConfig.Diff

inductive Change where
  | changed (first second : Value)
  | added (second : Value)
  | removed (first : Value)

structure Entry where
  key : String
  change : Change

def fullKey (outer key : String) : String :=
  if outer.isEmpty then key else outer ++ "." ++ key

abbrev Groups := List (String × List Entry)

def Groups.entries (groups : Groups) : List Entry :=
  (Sorting.sort (fun a b => decide (a.1 ≤ b.1)) groups).flatMap Prod.snd

def additions (outer : String) (first second : Table) : Groups :=
  (second.filter fun e => !Value.hasKey first e.1).map fun e =>
    (e.1, [⟨fullKey outer e.1, .added e.2⟩])

mutual

/-- The changes at a key of the first table, given its value in the second. -/
def compareValue (full : String) : Value → Option Value → List Entry
  | left, none => [⟨full, .removed left⟩]
  | .table first, some (.table second) =>
    Groups.entries (compareEntries full second first ++ additions full first second)
  | left, some right => if left.equal right then [] else [⟨full, .changed left right⟩]

def compareEntries (outer : String) (second : Table) : List (String × Value) → Groups
  | [] => []
  | (key, left) :: rest =>
    (key, compareValue (fullKey outer key) left (second.lookup key)) ::
      compareEntries outer second rest

end

def compare (first second : Table) (outer : String) : List Entry :=
  Groups.entries (compareEntries outer second first ++ additions outer first second)

end TypedConfig.Diff
