import TypedConfig.Go.Type
import TypedConfig.Go.Quoted
import TypedConfig.Duration.Parts
import TypedConfig.Binary64.Layout

namespace TypedConfig.Go

/-- A record inside a slice of records has its type elided. -/
inductive Literal where
  | nil
  | boolean (b : Bool)
  | integer (n : Int)
  | float (x : Binary64)
  | string (s : String)
  | duration (nanoseconds : Int)
  | bytes (data : List UInt8)
  | slice (element : GoType) (items : List Literal)
  | record (typeName : Option String) (fields : List (String × Literal))
  | records (typeName : String) (elements : List Literal)

def tabs (depth : Int) : String :=
  String.ofList (List.replicate depth.toNat '\t')

def bytesPerRow : Nat := 12

def rows {α : Type} (size : Nat) (xs : List α) : List (List α) :=
  if _h : xs = [] ∨ size = 0 then []
  else xs.take size :: rows size (xs.drop size)
termination_by xs.length
decreasing_by
  have : xs.length ≠ 0 := fun e => _h (.inl (List.length_eq_zero_iff.1 e))
  simp only [List.length_drop]
  omega

def byteText (b : UInt8) : String :=
  "0x" ++ String.ofList (Text.hex 2 b.toNat)

def rowText (depth : Int) (row : List UInt8) : String :=
  tabs depth ++ ", ".intercalate (row.map byteText) ++ ","

def bytesText (data : List UInt8) (depth : Int) : String :=
  if data.isEmpty then "[]byte\x7b\x7d"
  else
    "[]byte\x7b\n" ++ "\n".intercalate ((rows bytesPerRow data).map (rowText (depth + 1))) ++
      "\n" ++ tabs depth ++ "\x7d"

def finiteText (text : List Char) : String :=
  if ['.', '0'].isSuffixOf text then String.ofList (text.take (text.length - 2))
  else String.ofList text

def floatText (x : Binary64) : String :=
  finiteText x.text.toList

mutual

def Literal.text (depth : Int) : Literal → String
  | .nil => "nil"
  | .boolean b => if b then "true" else "false"
  | .integer n => toString n
  | .float .nan => "math.NaN()"
  | .float (.infinite negative) => if negative then "math.Inf(-1)" else "math.Inf(1)"
  | .float x => floatText x
  | .string s => quote s
  | .duration n => Duration.literal n
  | .bytes data => bytesText data depth
  | .slice element items =>
    "[]" ++ element.text ++ "\x7b" ++ ", ".intercalate (itemTexts depth items) ++ "\x7d"
  | .record typeName fields =>
    typeName.getD "" ++ "\x7b\n" ++ String.join (fieldTexts (depth + 1) fields) ++
      tabs depth ++ "\x7d"
  | .records typeName elements =>
    "[]" ++ typeName ++ "\x7b\n" ++ String.join (elementTexts (depth + 1) elements) ++
      tabs depth ++ "\x7d"

def itemTexts (depth : Int) : List Literal → List String
  | [] => []
  | item :: rest => item.text depth :: itemTexts depth rest

def fieldTexts (depth : Int) : List (String × Literal) → List String
  | [] => []
  | (name, value) :: rest =>
    (tabs depth ++ name ++ ": " ++ value.text depth ++ ",\n") :: fieldTexts depth rest

def elementTexts (depth : Int) : List Literal → List String
  | [] => []
  | element :: rest => (tabs depth ++ element.text depth ++ ",\n") :: elementTexts depth rest

end

end TypedConfig.Go
