import TypedConfig.Text.Upper

namespace TypedConfig.Naming

inductive Step where
  | key (key : String)
  | index (i : Int)
  deriving DecidableEq, Repr

def Step.text : Step → String
  | .key name => name
  | .index i => toString i

def defaultVariablePrefix : String := "CONFIG"

def safeVariableChar (c : Char) : Char :=
  if c.isUpper || c.isDigit then c else '_'

def segment (text : String) : String :=
  String.ofList ((Text.upper text).toList.map safeVariableChar)

/-- The marker and one segment for every step of the path, joined by underscores. -/
def variableName (marker : String) (path : List Step) : String :=
  "_".intercalate (marker :: path.map fun step => segment step.text)

end TypedConfig.Naming
