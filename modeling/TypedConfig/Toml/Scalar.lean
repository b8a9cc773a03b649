import TypedConfig.Toml.Scan
import TypedConfig.Value.Basic
import TypedConfig.Binary64.Reading

namespace TypedConfig.Toml

def moreDigits (p : Char → Bool) : List Char → List Char × List Char
  | [] => ([], [])
  | '_' :: [] => ([], ['_'])
  | '_' :: c :: rest =>
    if p c then
      let (digits, rest) := moreDigits p rest
      (c :: digits, rest)
    else ([], '_' :: c :: rest)
  | c :: rest =>
    if p c then
      let (digits, rest) := moreDigits p rest
      (c :: digits, rest)
    else ([], c :: rest)

def digitRun (p : Char → Bool) : List Char → List Char × List Char
  | [] => ([], [])
  | c :: rest =>
    if p c then
      let (digits, rest) := moreDigits p rest
      (c :: digits, rest)
    else ([], c :: rest)

def radixInteger? (base : Nat) (cs : List Char) : Option (Nat × List Char) :=
  let isDigitOf (c : Char) : Bool := (hexValue? c).any (· < base)
  match digitRun isDigitOf cs with
  | ([], _) => none
  | (digits, rest) => some (digits.foldl (fun n c => base * n + (hexValue? c).getD 0) 0, rest)

def markedInteger? : List Char → Option (Nat × List Char)
  | '0' :: 'x' :: rest => radixInteger? 16 rest
  | '0' :: 'o' :: rest => radixInteger? 8 rest
  | '0' :: 'b' :: rest => radixInteger? 2 rest
  | _ => none

def wholePart : List Char → List Char × List Char
  | '0' :: rest => (['0'], rest)
  | cs => digitRun Decimal.isDigit cs

def fractionPart : List Char → List Char × List Char
  | '.' :: rest =>
    match digitRun Decimal.isDigit rest with
    | ([], _) => ([], '.' :: rest)
    | (digits, rest) => (digits, rest)
  | cs => ([], cs)

def exponentPart? : List Char → Option (Int × List Char)
  | c :: rest =>
    if c == 'e' || c == 'E' then
      let (negative, digits) := Decimal.splitSign rest
      match digitRun Decimal.isDigit digits with
      | ([], _) => none
      | (digits, rest) => some (Decimal.signed negative (Decimal.value digits), rest)
    else none
  | [] => none

def decimalNumber (cs : List Char) : Option (Except DecodeError (Value × List Char)) :=
  let (negative, body) := Decimal.splitSign cs
  match wholePart body with
  | ([], _) => none
  | (whole, rest) =>
    let (fraction, rest) := fractionPart rest
    match fraction, exponentPart? rest with
    | [], none =>
      match Decimal.readNat whole with
      | .ok n => some (.ok (.integer (Decimal.signed negative n), rest))
      | .error error => some (.error (.tooManyDigits error))
    | fraction, power =>
      let (exponent, rest) := power.getD (0, rest)
      some (.ok (.float (Binary64.ofDecimal negative (Decimal.value (whole ++ fraction))
        (exponent - fraction.length)), rest))

def number (cs : List Char) : Option (Except DecodeError (Value × List Char)) :=
  match markedInteger? cs with
  | some (n, rest) => some (.ok (.integer n, rest))
  | none => decimalNumber cs

def fixedDigits (count : Nat) (cs : List Char) : Option (Nat × List Char) :=
  let digits := cs.take count
  if digits.length = count ∧ digits.all Decimal.isDigit then
    some (Decimal.value digits, cs.drop count)
  else none

def expect (c : Char) : List Char → Option (List Char)
  | d :: rest => if d = c then some rest else none
  | [] => none

def twoDigits (low high : Nat) (cs : List Char) : Option (Nat × List Char) :=
  match fixedDigits 2 cs with
  | some (n, rest) => if low ≤ n ∧ n ≤ high then some (n, rest) else none
  | none => none

def microseconds : List Char → Nat × List Char
  | '.' :: rest =>
    match rest.takeWhile Decimal.isDigit with
    | [] => (0, '.' :: rest)
    | digits =>
      let six := (digits ++ List.replicate 6 '0').take 6
      (Decimal.value six, rest.dropWhile Decimal.isDigit)
  | cs => (0, cs)

def clock? (cs : List Char) : Option (Calendar.Clock × List Char) := do
  let (hour, cs) ← twoDigits 0 23 cs
  let cs ← expect ':' cs
  let (minute, cs) ← twoDigits 0 59 cs
  let cs ← expect ':' cs
  let (second, cs) ← twoDigits 0 59 cs
  let (microsecond, cs) := microseconds cs
  return (⟨hour, minute, second, microsecond⟩, cs)

def date? (cs : List Char) : Option (Calendar.Date × List Char) := do
  let (year, cs) ← fixedDigits 4 cs
  let cs ← expect '-' cs
  let (month, cs) ← twoDigits 1 12 cs
  let cs ← expect '-' cs
  let (day, cs) ← twoDigits 1 31 cs
  return (⟨year, month, day⟩, cs)

def offset? : List Char → Option (Int × List Char)
  | 'Z' :: rest => some (0, rest)
  | 'z' :: rest => some (0, rest)
  | c :: rest =>
    if c = '+' ∨ c = '-' then do
      let (hours, rest) ← twoDigits 0 23 rest
      let rest ← expect ':' rest
      let (minutes, rest) ← twoDigits 0 59 rest
      return (Decimal.signed (c == '-') (60 * hours + minutes), rest)
    else none
  | [] => none

def clockAfterDate? : List Char → Option (Calendar.Clock × List Char)
  | c :: rest => if c = 'T' ∨ c = 't' ∨ c = ' ' then clock? rest else none
  | [] => none

def dateOrStamp (cs : List Char) : Option (Except DecodeError (Value × List Char)) := do
  let (date, rest) ← date? cs
  if !date.isValid then return malformed
  match clockAfterDate? rest with
  | none => return .ok (.moment (.date date), rest)
  | some (clock, rest) =>
    match offset? rest with
    | none => return .ok (.moment (.stamp date clock none), rest)
    | some (offset, rest) => return .ok (.moment (.stamp date clock (some offset)), rest)

def clockValue (cs : List Char) : Option (Except DecodeError (Value × List Char)) :=
  (clock? cs).map fun (clock, rest) => .ok (.moment (.clock clock), rest)

def specialFloat (cs : List Char) : Option (Except DecodeError (Value × List Char)) :=
  let (negative, body) := Decimal.splitSign cs
  match body with
  | 'i' :: 'n' :: 'f' :: rest => some (.ok (.float (.infinite negative), rest))
  | 'n' :: 'a' :: 'n' :: rest => some (.ok (.float .nan, rest))
  | _ => none

def boolean (cs : List Char) : Option (Except DecodeError (Value × List Char)) :=
  match cs with
  | 't' :: 'r' :: 'u' :: 'e' :: rest => some (.ok (.boolean true, rest))
  | 'f' :: 'a' :: 'l' :: 's' :: 'e' :: rest => some (.ok (.boolean false, rest))
  | _ => none

def scalar (cs : List Char) : Except DecodeError (Value × List Char) :=
  (boolean cs <|> dateOrStamp cs <|> clockValue cs <|> number cs <|> specialFloat cs).getD malformed

end TypedConfig.Toml
