import TypedConfig.CommandLine.Grammar
import TypedConfig.Text.Digit

namespace TypedConfig.CommandLine

structure Reading where
  option : Option NamedOption
  name : String
  attached : Option (List Char)
  deriving DecidableEq, Repr

inductive Mark where
  | operand
  | separator
  | option (reading : Reading)
  deriving DecidableEq, Repr

def separator : String := "--"

def splitEquals (cs : List Char) : List Char × Option (List Char) :=
  match cs.dropWhile (· != '=') with
  | [] => (cs, none)
  | _ :: behind => (cs.takeWhile (· != '='), some behind)

def candidates (g : Grammar) (cs : List Char) : List Reading :=
  match cs with
  | '-' :: '-' :: _ =>
    let (start, attached) := splitEquals cs
    (g.named.filter fun n => start.isPrefixOf n.1.toList).map fun n =>
      ⟨some n.2, n.1, attached⟩
  | _ =>
    g.named.filterMap fun n =>
      if n.1.toList = cs.take 2 then some ⟨some n.2, n.1, some (cs.drop 2)⟩
      else if cs.isPrefixOf n.1.toList then some ⟨some n.2, n.1, none⟩
      else none

def isDigit (c : Char) : Bool :=
  (Text.digit? c).isSome

def isNegativeNumber : List Char → Bool
  | '-' :: body =>
    let body := if body.getLast? = some '\n' then body.dropLast else body
    let whole := body.takeWhile isDigit
    match body.dropWhile isDigit with
    | [] => !whole.isEmpty
    | '.' :: fraction => !fraction.isEmpty && fraction.all isDigit
    | _ => false
  | _ => false

/-- An argument that begins with a dash is an option, unless it is a dash alone, a negative number
or a text with blanks that no option is meant by. -/
def mark (g : Grammar) (argument : String) : Except Refusal Mark :=
  let cs := argument.toList
  if cs.head? ≠ some '-' then .ok .operand
  else
    match g.named.lookup argument with
    | some o => .ok (.option ⟨some o, argument, none⟩)
    | none =>
      if cs.length = 1 then .ok .operand
      else
        let (start, attached) := splitEquals cs
        match attached, g.named.lookup (String.ofList start) with
        | some _, some o => .ok (.option ⟨some o, String.ofList start, attached⟩)
        | _, _ =>
          match candidates g cs with
          | [] =>
            if isNegativeNumber cs || cs.contains ' ' then .ok .operand
            else .ok (.option ⟨none, argument, none⟩)
          | [reading] => .ok (.option reading)
          | readings =>
            .error (.misuse g ("ambiguous option: " ++ argument ++ " could match " ++
              ", ".intercalate (readings.map (·.name))))

abbrev Item := String × Mark

def marks (g : Grammar) : List String → Except Refusal (List Item)
  | [] => .ok []
  | argument :: rest =>
    if argument = separator then
      .ok ((argument, .separator) :: rest.map (·, .operand))
    else do
      let first ← mark g argument
      let others ← marks g rest
      return (argument, first) :: others

end TypedConfig.CommandLine
