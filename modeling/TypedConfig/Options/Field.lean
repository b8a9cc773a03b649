import TypedConfig.Files.Path
import TypedConfig.Decimal.Numeral
import TypedConfig.Text.Blank

namespace TypedConfig.Options

inductive FieldValue where
  | text (text : String)
  | integer (n : Int)
  | truth (b : Bool)
  | nothing
  | other

abbrev Fields := List (String × FieldValue)

inductive FieldFault where
  | missing
  | notAllowed
  | notAMember
  | tooSmall
  | notANumber
  | notAnInteger
  | notAString
  | notAPath
  | notATruthValue
  deriving DecidableEq, Repr

structure FieldError where
  name : String
  fault : FieldFault
  deriving DecidableEq, Repr

def override (fields others : Fields) : Fields :=
  others ++ fields.filter fun f => !others.any (·.1 == f.1)

def plainDigits? : List Char → Option (List Char)
  | [] => none
  | [c] => if Decimal.isDigit c then some [c] else none
  | c :: '_' :: rest =>
    if Decimal.isDigit c then (plainDigits? rest).map (c :: ·) else none
  | c :: rest => if Decimal.isDigit c then (plainDigits? rest).map (c :: ·) else none

def dropLeadingZeros : List Char → List Char
  | '0' :: rest =>
    match rest.dropWhile fun c => c == '0' || c == '_' with
    | [] => [rest.getLast?.getD '0']
    | digits => digits
  | cs => cs

def isZeroFraction : List Char → Bool
  | [] => true
  | _ :: zeros => !zeros.isEmpty && zeros.all (· == '0')

/-- A whole number in text: white space around it, a sign, and a fraction of zeros do not matter. -/
def integerOfText? (text : String) : Option Int :=
  let (negative, cs) := Decimal.splitSign (Text.trimSpace text)
  if isZeroFraction (cs.dropWhile (· != '.')) then
    let whole := cs.takeWhile (· != '.')
    (plainDigits? (if negative then whole else dropLeadingZeros whole)).map fun digits =>
      Decimal.signed negative (Decimal.value digits)
  else none

def readInteger : FieldValue → Except FieldFault Int
  | .integer n => .ok n
  | .truth b => .ok (if b then 1 else 0)
  | .text s =>
    match integerOfText? s with
    | some n => .ok n
    | none => .error .notANumber
  | _ => .error .notAnInteger

def readAtLeast (least : Int) (v : FieldValue) : Except FieldFault Int := do
  let n ← readInteger v
  if n < least then throw .tooSmall
  return n

def readString : FieldValue → Except FieldFault String
  | .text s => .ok s
  | _ => .error .notAString

def readPath : FieldValue → Except FieldFault Path
  | .text s => .ok (Path.ofText s)
  | _ => .error .notAPath

def trueNames : List String := ["1", "t", "true", "y", "yes", "on"]
def falseNames : List String := ["0", "f", "false", "n", "no", "off"]

def readTruth : FieldValue → Except FieldFault Bool
  | .truth b => .ok b
  | .integer 0 => .ok false
  | .integer 1 => .ok true
  | .text s =>
    let name := s.toLower
    if trueNames.contains name then .ok true
    else if falseNames.contains name then .ok false
    else .error .notATruthValue
  | _ => .error .notATruthValue

def readField {α : Type} (fields : Fields) (name : String) (read : FieldValue → Except FieldFault α)
    (fallback : Option α) : Except FieldError α :=
  match fields.lookup name, fallback with
  | some v, _ => (read v).mapError (⟨name, ·⟩)
  | none, some a => .ok a
  | none, none => .error ⟨name, .missing⟩

def errorOf {ε α : Type} : Except ε α → List ε
  | .error e => [e]
  | .ok _ => []

end TypedConfig.Options
