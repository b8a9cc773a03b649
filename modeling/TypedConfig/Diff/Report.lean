import TypedConfig.Diff.Basic
import TypedConfig.Go.Literal
import TypedConfig.Decimal.Numeral

namespace TypedConfig.Diff

structure Report where
  first : String
  second : String
  entries : List Entry

def Report.count (r : Report) : Nat :=
  r.entries.length

mutual

def valueText : Value → Except Decimal.LimitError String
  | .string s => .ok ("\"" ++ s ++ "\"")
  | .integer n => Decimal.writeInt n
  | .float x => .ok (Go.floatText x)
  | .boolean b => .ok (if b then "true" else "false")
  | .moment m => .ok m.text
  | .array items => do
    let texts ← itemTexts items
    return "[" ++ ", ".intercalate texts ++ "]"
  | .table _ => .ok "\x7b...\x7d"
  | .absent => .ok "None"

def itemTexts : List Value → Except Decimal.LimitError (List String)
  | [] => .ok []
  | v :: rest => do
    let first ← valueText v
    let others ← itemTexts rest
    return first :: others

end

def Report.valueLines (r : Report) (e : Entry) : Except Decimal.LimitError (List String) := do
  match e.change with
  | .changed first second =>
    let first ← valueText first
    let second ← valueText second
    return ["  " ++ e.key, "    - " ++ first ++ "     (" ++ r.first ++ ")",
      "    + " ++ second ++ "     (" ++ r.second ++ ")", ""]
  | .added second =>
    return ["  + " ++ e.key ++ " = " ++ (← valueText second) ++ "     (only in " ++ r.second ++ ")"]
  | .removed first =>
    return ["  - " ++ e.key ++ " = " ++ (← valueText first) ++ "     (only in " ++ r.first ++ ")"]

def keyLine (e : Entry) : String :=
  match e.change with
  | .changed .. => "  ~ " ++ e.key
  | .added _ => "  + " ++ e.key
  | .removed _ => "  - " ++ e.key

def Report.text (r : Report) (keysOnly : Bool) : Except Decimal.LimitError String := do
  if r.entries.isEmpty then return "No differences found.\n"
  let lines ←
    if keysOnly then pure (r.entries.map keyLine)
    else List.flatten <$> r.entries.mapM r.valueLines
  let heading := "Differences between " ++ r.first ++ " and " ++ r.second ++ ":"
  return "\n".intercalate (heading :: "" :: lines) ++ "\n"

inductive Json where
  | plain (text : String)
  | string (text : String)
  | array (items : List Json)
  | object (fields : List (String × Json))

def jsonStyle : List (Char × Char) :=
  [('"', '"'), ('\\', '\\'), ('\x08', 'b'), ('\t', 't'), ('\n', 'n'), ('\x0c', 'f'), ('\r', 'r')]

def jsonChar (c : Char) : List Char :=
  match jsonStyle.lookup c with
  | some letter => ['\\', letter]
  | none => if c.toNat < 0x20 then '\\' :: 'u' :: Text.hex 4 c.toNat else [c]

def jsonString (s : String) : String :=
  String.ofList ('"' :: s.toList.flatMap jsonChar ++ ['"'])

def spaces (depth : Nat) : String :=
  String.ofList (List.replicate (2 * depth) ' ')

def jsonGroup (opening closing : String) (depth : Nat) (parts : List String) : String :=
  if parts.isEmpty then opening ++ closing
  else
    opening ++ "\n" ++ ",\n".intercalate (parts.map (spaces (depth + 1) ++ ·)) ++ "\n" ++
      spaces depth ++ closing

mutual

def Json.text (depth : Nat) : Json → String
  | .plain text => text
  | .string text => jsonString text
  | .array items => jsonGroup "[" "]" depth (jsonItems (depth + 1) items)
  | .object fields => jsonGroup "\x7b" "\x7d" depth (jsonFields (depth + 1) fields)

def jsonItems (depth : Nat) : List Json → List String
  | [] => []
  | item :: rest => item.text depth :: jsonItems depth rest

def jsonFields (depth : Nat) : List (String × Json) → List String
  | [] => []
  | (name, item) :: rest =>
    (jsonString name ++ ": " ++ item.text depth) :: jsonFields depth rest

end

def jsonLayout : Binary64.Layout := ⟨-5, 15, 1⟩

def jsonFloat : Binary64 → String
  | .finite x => String.ofList (jsonLayout.finite x)
  | _ => "null"

def jsonOffset (offset : Int) : String :=
  if offset = 0 then "Z" else Calendar.offsetText offset

mutual

def jsonValue : Value → Json
  | .string s => .string s
  | .integer n => .plain (toString n)
  | .float x => .plain (jsonFloat x)
  | .boolean b => .plain (if b then "true" else "false")
  | .moment m => .string (m.textWith jsonOffset)
  | .array items => .array (jsonValues items)
  | .table entries => .object (jsonEntries entries)
  | .absent => .plain "null"

def jsonValues : List Value → List Json
  | [] => []
  | v :: rest => jsonValue v :: jsonValues rest

def jsonEntries : List (String × Value) → List (String × Json)
  | [] => []
  | (key, v) :: rest => (key, jsonValue v) :: jsonEntries rest

end

def sideField (name : String) : Value → List (String × Json)
  | .absent => []
  | v => [(name, jsonValue v)]

def Change.name : Change → String
  | .changed .. => "changed"
  | .added _ => "added"
  | .removed _ => "removed"

def Change.sides : Change → List (String × Json)
  | .changed first second => sideField "value1" first ++ sideField "value2" second
  | .added second => sideField "value2" second
  | .removed first => sideField "value1" first

def Entry.json (e : Entry) : Json :=
  .object ([("key", .string e.key), ("type", .string e.change.name)] ++ e.change.sides)

def Report.json (r : Report) : Json :=
  .object [("file1", .string r.first), ("file2", .string r.second),
    ("differences", .array (r.entries.map Entry.json)), ("count", .plain (toString r.count))]

def Report.jsonText (r : Report) : String :=
  r.json.text 0 ++ "\n"

end TypedConfig.Diff
