namespace TypedConfig.Decimal

def isDigit (c : Char) : Bool :=
  '0' ≤ c && c ≤ '9'

def value (cs : List Char) : Nat :=
  cs.foldl (fun n c => 10 * n + (c.toNat - '0'.toNat)) 0

def numeral (n : Nat) : List Char :=
  Nat.toDigits 10 n

def maxDigits : Nat := 4300

inductive LimitError where
  | reading (count : Nat)
  | writing
  deriving DecidableEq, Repr

def LimitError.message : LimitError → String
  | .reading count =>
    s!"Exceeds the limit ({maxDigits} digits) for integer string conversion: " ++
      s!"value has {count} digits; use sys.set_int_max_str_digits() to increase the limit"
  | .writing =>
    s!"Exceeds the limit ({maxDigits} digits) for integer string conversion; " ++
      "use sys.set_int_max_str_digits() to increase the limit"

def readNat (digits : List Char) : Except LimitError Nat :=
  if digits.length ≤ maxDigits then .ok (value digits) else .error (.reading digits.length)

def signed (negative : Bool) (n : Nat) : Int :=
  if negative then -(n : Int) else n

def splitSign : List Char → Bool × List Char
  | '-' :: rest => (true, rest)
  | '+' :: rest => (false, rest)
  | cs => (false, cs)

def writeInt (n : Int) : Except LimitError String :=
  if n.natAbs < Nat.pow 10 maxDigits then .ok (toString n) else .error .writing

end TypedConfig.Decimal
