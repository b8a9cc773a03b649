namespace TypedConfig.CommandLine

inductive ValueKind where
  | anything
  | oneOf (choices : List String)
  | integer
  deriving DecidableEq, Repr

inductive Action where
  | help
  | switch
  | value (kind : ValueKind)
  deriving DecidableEq, Repr

structure NamedOption where
  names : List String
  setting : String
  action : Action
  isRequired : Bool
  deriving DecidableEq, Repr

inductive Operand where
  | single (name : String)
  | command (name : String) (choices : List String)
  deriving DecidableEq, Repr

structure Grammar where
  program : String
  options : List NamedOption
  operands : List Operand
  deriving DecidableEq, Repr

def NamedOption.title (o : NamedOption) : String :=
  "/".intercalate o.names

def Operand.name : Operand → String
  | .single name => name
  | .command name _ => name

def choiceText (choices : List String) : String :=
  "\x7b" ++ ",".intercalate choices ++ "\x7d"

namespace NamedOption

def valueText (o : NamedOption) : String :=
  match o.action with
  | .help | .switch => ""
  | .value (.oneOf choices) => " " ++ choiceText choices
  | .value _ => " " ++ o.setting.toUpper

def usage (o : NamedOption) : String :=
  let text := (o.names.head?.getD "") ++ o.valueText
  if o.isRequired then text else "[" ++ text ++ "]"

end NamedOption

def Operand.usage : Operand → String
  | .single name => name
  | .command _ choices => choiceText choices ++ " ..."

def Grammar.usage (g : Grammar) : String :=
  " ".intercalate
    ("usage:" :: g.program :: g.options.map NamedOption.usage ++ g.operands.map Operand.usage)

def Grammar.named (g : Grammar) : List (String × NamedOption) :=
  g.options.flatMap fun o => o.names.map (·, o)

inductive Refusal where
  | help (grammar : Grammar)
  | misuse (grammar : Grammar) (message : String)
  deriving DecidableEq, Repr

end TypedConfig.CommandLine
