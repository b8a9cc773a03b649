import TypedConfig.Override.Conversion
import TypedConfig.Naming.Variable

namespace TypedConfig.Override

structure OverrideError where
  variableName : String
  cause : ConversionError
  deriving DecidableEq, Repr

def OverrideError.message (e : OverrideError) : String :=
  "invalid value for " ++ e.variableName ++ ": " ++ e.cause.message

abbrev Environment := List (String × String)

def lookUp (environment : Environment) (name : String) : Option String :=
  match environment.lookup name with
  | some text => if text.isEmpty then none else some text
  | none => none

structure Outcome where
  applied : List String
  ignored : List String
  failure : Option OverrideError
  deriving DecidableEq, Repr

def Outcome.start (applied : List String) : Outcome :=
  ⟨applied, [], none⟩

structure Source where
  marker : String
  environment : Environment

abbrev Path := List Naming.Step

namespace Source

def variableName (source : Source) (path : Path) : String :=
  Naming.variableName source.marker path

/-- A leaf is a scalar or an array that does not start with a table. It is replaced as a whole,
and an empty array cannot be, since it does not say what its elements are. -/
def replaceLeaf (text : String) (v : Value) : Except ConversionError (Option Value) :=
  match v with
  | .array [] => .ok none
  | .array (sample :: _) => (some ∘ .array) <$> convertArray text sample
  | _ => some <$> convert text v

def applyLeaf (source : Source) (path : Path) (v : Value) (outcome : Outcome) :
    Value × Outcome :=
  let name := source.variableName path
  match outcome.failure, lookUp source.environment name with
  | some _, _ | none, none => (v, outcome)
  | none, some text =>
    match replaceLeaf text v with
    | .error cause => (v, { outcome with failure := some ⟨name, cause⟩ })
    | .ok none => (v, { outcome with ignored := outcome.ignored ++ [name] })
    | .ok (some replaced) => (replaced, { outcome with applied := outcome.applied ++ [name] })

mutual

def applyValue (source : Source) (path : Path) (outcome : Outcome) : Value → Value × Outcome
  | .table entries =>
    let (entries, outcome) := applyEntries source path outcome entries
    (.table entries, outcome)
  | .array items =>
    if Value.isTableArray (.array items) then
      let (items, outcome) := applyTables source path 0 outcome items
      (.array items, outcome)
    else source.applyLeaf path (.array items) outcome
  | v => source.applyLeaf path v outcome

def applyEntries (source : Source) (path : Path) (outcome : Outcome) :
    List (String × Value) → Table × Outcome
  | [] => ([], outcome)
  | (key, v) :: rest =>
    let (v, outcome) := applyValue source (path ++ [.key key]) outcome v
    let (rest, outcome) := applyEntries source path outcome rest
    ((key, v) :: rest, outcome)

/-- The tables of an array are numbered from zero with all its elements; only tables have
variables. -/
def applyTables (source : Source) (path : Path) (i : Nat) (outcome : Outcome) :
    List Value → List Value × Outcome
  | [] => ([], outcome)
  | .table entries :: rest =>
    let (entries, outcome) := applyEntries source (path ++ [.index i]) outcome entries
    let (rest, outcome) := applyTables source path (i + 1) outcome rest
    (.table entries :: rest, outcome)
  | v :: rest =>
    let (rest, outcome) := applyTables source path (i + 1) outcome rest
    (v :: rest, outcome)

end

/-- Replaces what the environment overrides in a whole configuration, continuing a list of
applied variables. -/
def apply (source : Source) (applied : List String) (tree : Table) : Table × Outcome :=
  source.applyEntries [] (.start applied) tree

end Source
end TypedConfig.Override
