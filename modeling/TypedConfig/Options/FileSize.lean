import TypedConfig.Decimal.Numeral
import TypedConfig.Text.Blank
import TypedConfig.Text.Upper

namespace TypedConfig.FileSize

inductive SizeError where
  | malformed (text : String)
  | tooManyDigits (error : Decimal.LimitError)
  deriving DecidableEq, Repr

def SizeError.message : SizeError → String
  | .malformed text => "invalid size format: " ++ text
  | .tooManyDigits error => error.message

def units : List (List Char × Nat) :=
  [(['T', 'B'], 1 <<< 40), (['G', 'B'], 1 <<< 30), (['M', 'B'], 1 <<< 20), (['K', 'B'], 1 <<< 10),
    (['B'], 1)]

def dropEnd (cs : List Char) (count : Nat) : List Char :=
  cs.take (cs.length - count)

def splitUnit (cs : List Char) : List Char × Nat :=
  match units.find? fun u => u.1.isSuffixOf cs with
  | some (name, factor) =>
    let number := Text.dropBlankEnd (dropEnd cs name.length)
    (number.dropWhile Text.isBlank, factor)
  | none => (cs, 1)

def parse (text : String) : Except SizeError Nat := do
  let size := (Text.upper (Text.trim text)).toList
  if size.isEmpty then return 0
  let (number, factor) := splitUnit size
  if number.isEmpty || !number.all Decimal.isDigit then throw (.malformed text)
  let n ← (Decimal.readNat number).mapError .tooManyDigits
  return n * factor

end TypedConfig.FileSize
