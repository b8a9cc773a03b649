import TypedConfig.Value.Basic

namespace TypedConfig.Value

def hasKey (entries : Table) (key : String) : Bool :=
  (entries.lookup key).isSome

mutual

def equal : Value → Value → Bool
  | .string a, .string b => a == b
  | .integer a, .integer b => a == b
  | .integer a, .float y => y.equalInt a
  | .float x, .integer b => x.equalInt b
  | .float x, .float y => x.equal y
  | .boolean a, .boolean b => a == b
  | .moment a, .moment b => a.equal b
  | .array xs, .array ys => equalItems xs ys
  | .table xs, .table ys => equalEntries ys xs && ys.all fun e => hasKey xs e.1
  | .absent, .absent => true
  | _, _ => false

def equalItems : List Value → List Value → Bool
  | [], [] => true
  | x :: xs, y :: ys => x.equal y && equalItems xs ys
  | _, _ => false

def equalEntries (others : Table) : List (String × Value) → Bool
  | [] => true
  | (key, v) :: rest =>
    (match others.lookup key with
      | some other => v.equal other
      | none => false) && equalEntries others rest

end

end TypedConfig.Value
