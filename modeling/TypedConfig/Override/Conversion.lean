import TypedConfig.Value.Kind
import TypedConfig.Binary64.Reading
import TypedConfig.Text.Blank
import TypedConfig.Text.Quoted

namespace TypedConfig.Override

inductive ConversionError where
  | expectedInteger
  | integerOutOfRange
  | tooManyDigits (error : Decimal.LimitError)
  | expectedFloat
  | floatOutOfRange
  | unreadableFloat (text : String)
  | expectedBoolean
  deriving DecidableEq, Repr

def ConversionError.message : ConversionError → String
  | .expectedInteger => "expected integer"
  | .integerOutOfRange => "integer out of range"
  | .tooManyDigits error => error.message
  | .expectedFloat => "expected float"
  | .floatOutOfRange => "float out of range"
  | .unreadableFloat text => "could not convert string to float: " ++ Text.shown text
  | .expectedBoolean => "expected boolean"

def minInt64 : Int := -0x8000000000000000
def maxInt64 : Int := 0x7fffffffffffffff

def parseInt (text : String) : Except ConversionError Int := do
  let (negative, digits) := Decimal.splitSign text.toList
  if digits.isEmpty || !digits.all Decimal.isDigit then throw .expectedInteger
  let n ← (Decimal.readNat digits).mapError .tooManyDigits
  let value := Decimal.signed negative n
  if value < minInt64 ∨ maxInt64 < value then throw .integerOutOfRange
  return value

def foldCase (c : Char) : Char :=
  if c = 'ı' ∨ c = 'İ' then 'i' else c.toLower

def isSpecialName (cs : List Char) : Bool :=
  ["inf", "infinity", "nan"].contains (String.ofList (cs.map foldCase))

def parseFloat (text : String) : Except ConversionError Binary64 :=
  let (_, body) := Decimal.splitSign text.toList
  match Binary64.ofText? text with
  | some x => if x.isInfinite && !isSpecialName body then .error .floatOutOfRange else .ok x
  | none => .error (if isSpecialName body then .unreadableFloat text else .expectedFloat)

def trueNames : List String := ["1", "t", "T", "TRUE", "true", "True"]
def falseNames : List String := ["0", "f", "F", "FALSE", "false", "False"]

def parseBool (text : String) : Except ConversionError Bool :=
  if trueNames.contains text then .ok true
  else if falseNames.contains text then .ok false
  else .error .expectedBoolean

/-- Booleans and numbers are read; in place of anything else the text stands as it is. -/
def convert (text : String) (replaced : Value) : Except ConversionError Value :=
  match replaced with
  | .boolean _ => .boolean <$> parseBool text
  | .integer _ => .integer <$> parseInt text
  | .float _ => .float <$> parseFloat text
  | _ => .ok (.string text)

def splitCommas : List Char → List (List Char)
  | [] => [[]]
  | c :: rest =>
    match splitCommas rest with
    | [] => [[c]]
    | part :: more => if c = ',' then [] :: part :: more else (c :: part) :: more

/-- The parts between commas, without white space around them, each converted like the
sample. -/
def convertArray (text : String) (sample : Value) : Except ConversionError (List Value) :=
  (splitCommas text.toList).mapM fun part => convert (Text.trim (String.ofList part)) sample

end TypedConfig.Override
