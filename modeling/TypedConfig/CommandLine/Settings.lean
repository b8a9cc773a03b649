import TypedConfig.CommandLine.Argument
import TypedConfig.Options.Field
import TypedConfig.Text.Quoted

namespace TypedConfig.CommandLine

/-- The values that were given, the last one first, and the command with its arguments. A separator
is dropped also where it is all that an option or operand takes, which is then left without a
value. -/
structure Settings where
  values : List (String × Option String)
  switches : List String
  command : Option (String × List String)
  leftOver : List String
  deriving DecidableEq, Repr

namespace Settings

def empty : Settings := ⟨[], [], none, []⟩

def value? (s : Settings) (setting : String) : Option (Option String) :=
  s.values.lookup setting

def leave (arguments : List String) (s : Settings) : Settings :=
  { s with leftOver := s.leftOver ++ arguments }

def isGiven (s : Settings) (setting : String) : Bool :=
  (s.value? setting).isSome || s.switches.contains setting

end Settings

def complain {α : Type} (g : Grammar) (title message : String) : Except Refusal α :=
  .error (.misuse g ("argument " ++ title ++ ": " ++ message))

def plainDigit (c : Char) : Char :=
  match Text.digit? c with
  | some value => Char.ofNat ('0'.toNat + value)
  | none => c

def integerOfText? (text : String) : Option Int := do
  let (negative, cs) := Decimal.splitSign ((Text.trimSpace text).map plainDigit)
  let digits ← Options.plainDigits? cs
  let n ← (Decimal.readNat digits).toOption
  return Decimal.signed negative n

def choiceMessage (text : String) (choices : List String) : String :=
  "invalid choice: " ++ Text.shown text ++ " (choose from " ++
    ", ".intercalate (choices.map Text.shown) ++ ")"

def checkValue (g : Grammar) (title text : String) : ValueKind → Except Refusal Unit
  | .anything => .ok ()
  | .oneOf choices =>
    if choices.contains text then .ok () else complain g title (choiceMessage text choices)
  | .integer =>
    if (integerOfText? text).isSome then .ok ()
    else complain g title ("invalid int value: " ++ Text.shown text)

def takeOption (g : Grammar) (s : Settings) (o : NamedOption) (text : String) :
    Except Refusal Settings :=
  match o.action with
  | .help => .error (.help g)
  | .switch => .ok { s with switches := o.setting :: s.switches }
  | .value kind =>
    if text = separator then .ok { s with values := (o.setting, none) :: s.values }
    else do
      checkValue g o.title text kind
      return { s with values := (o.setting, some text) :: s.values }

/-- What an argument with options comes to: the options with their values, a part that is no
option, and the number of arguments that were taken behind it. -/
structure Cluster where
  options : List (NamedOption × String)
  leftOver : List String
  taken : Nat

def takeNext (g : Grammar) (o : NamedOption) (rest : List Item) : Except Refusal Cluster :=
  match o.action, rest with
  | .value _, (text, .operand) :: _ => .ok ⟨[(o, text)], [], 1⟩
  | .value _, _ => complain g o.title "expected one argument"
  | _, _ => .ok ⟨[(o, "")], [], 0⟩

def isLong (name : String) : Bool :=
  "--".toList.isPrefixOf name.toList

def takeAttached (g : Grammar) (rest : List Item) (o : NamedOption) (name : String)
    (attached : List Char) : Except Refusal Cluster :=
  let ignored := complain g o.title ("ignored explicit argument " ++
    Text.shown (String.ofList attached))
  match o.action with
  | .value _ => .ok ⟨[(o, String.ofList attached)], [], 0⟩
  | .help | .switch =>
    if isLong name then ignored
    else
      match attached with
      | [] => ignored
      | c :: behind =>
        let next := String.ofList ['-', c]
        match g.named.lookup next with
        | none => ignored
        | some other => do
          let cluster ←
            if behind.isEmpty then takeNext g other rest
            else takeAttached g rest other next behind
          return { cluster with options := (o, "") :: cluster.options }

def takeReading (g : Grammar) (argument : String) (r : Reading) (rest : List Item) :
    Except Refusal Cluster :=
  match r.option, r.attached with
  | none, _ => .ok ⟨[], [argument], 0⟩
  | some o, some attached => takeAttached g rest o r.name attached
  | some o, none => takeNext g o rest

def Operand.count (operand : Operand) (items : List Item) : Option Nat :=
  let before := (items.takeWhile (·.2 == .separator)).length
  match items.drop before with
  | (_, .operand) :: rest =>
    match operand with
    | .command .. => some items.length
    | .single _ => some (before + 1 + (rest.takeWhile (·.2 == .separator)).length)
  | _ => none

def takeOperand (g : Grammar) (s : Settings) (operand : Operand) (arguments : List String) :
    Except Refusal Settings :=
  match operand with
  | .single name => .ok { s with values := (name, (arguments.erase separator).head?) :: s.values }
  | .command name choices =>
    let command := arguments.head?.getD ""
    if choices.contains command then
      .ok { s with
        values := (name, some command) :: s.values
        command := some (command, arguments.drop 1) }
    else complain g name (choiceMessage command choices)

def takeOperands (g : Grammar) (s : Settings) (items : List Item) :
    List Operand → Except Refusal (Settings × Nat × List Operand)
  | [] => .ok (s, 0, [])
  | operand :: operands =>
    match operand.count items with
    | none => .ok (s, 0, operand :: operands)
    | some count => do
      let s ← takeOperand g s operand ((items.take count).map (·.1))
      let (s, more, left) ← takeOperands g s (items.drop count) operands
      return (s, count + more, left)

def isOption (item : Item) : Bool :=
  match item.2 with
  | .option _ => true
  | _ => false

def takeAll (g : Grammar) (s : Settings) (operands : List Operand) (items : List Item) :
    Except Refusal Settings :=
  match items with
  | [] => .ok s
  | (argument, .option reading) :: rest => do
    let cluster ← takeReading g argument reading rest
    let s ← cluster.options.foldlM (fun s o => takeOption g s o.1 o.2) (s.leave cluster.leftOver)
    takeAll g s operands (rest.drop cluster.taken)
  | first :: rest => do
    let (s, count, left) ← takeOperands g s (first :: rest) operands
    if 0 < count then takeAll g s left ((first :: rest).drop count)
    else if rest.any isOption then
      let unused := rest.takeWhile (!isOption ·)
      takeAll g (s.leave ((first :: unused).map (·.1))) left (rest.drop unused.length)
    else return s.leave ((first :: rest).map (·.1))
termination_by items.length
decreasing_by
  all_goals simp only [List.length_drop, List.length_cons]
  all_goals omega

def missing (g : Grammar) (s : Settings) : List String :=
  (g.options.filter fun o => o.isRequired && !s.isGiven o.setting).map NamedOption.title ++
    (g.operands.filter fun o => !s.isGiven o.name).map Operand.name

def settings (g : Grammar) (arguments : List String) : Except Refusal Settings := do
  let items ← marks g arguments
  let s ← takeAll g .empty g.operands items
  match missing g s with
  | [] => return s
  | names =>
    throw (.misuse g ("the following arguments are required: " ++ ", ".intercalate names))

end TypedConfig.CommandLine
