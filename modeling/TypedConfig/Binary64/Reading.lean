import TypedConfig.Binary64.Basic
import TypedConfig.Decimal.Numeral

namespace TypedConfig.Binary64

def splitDigits (cs : List Char) : List Char × List Char :=
  (cs.takeWhile Decimal.isDigit, cs.dropWhile Decimal.isDigit)

def splitMantissa (cs : List Char) : List Char × Nat × List Char :=
  let (whole, rest) := splitDigits cs
  match rest with
  | '.' :: rest =>
    let (fraction, rest) := splitDigits rest
    (whole ++ fraction, fraction.length, rest)
  | rest => (whole, 0, rest)

def readExponent : List Char → Option Int
  | [] => some 0
  | c :: rest =>
    if c == 'e' || c == 'E' then
      let (negative, digits) := Decimal.splitSign rest
      if digits.isEmpty || !digits.all Decimal.isDigit then none
      else some (Decimal.signed negative (Decimal.value digits))
    else none

def specialNames : List (String × (Bool → Binary64)) :=
  [("inf", .infinite), ("infinity", .infinite), ("nan", fun _ => .nan)]

def ofChars? (cs : List Char) : Option Binary64 :=
  let (negative, body) := Decimal.splitSign cs
  match specialNames.lookup (String.ofList (body.map Char.toLower)) with
  | some special => some (special negative)
  | none =>
    let (digits, places, rest) := splitMantissa body
    if digits.isEmpty then none
    else (readExponent rest).map fun exponent =>
      ofDecimal negative (Decimal.value digits) (exponent - places)

def ofText? (s : String) : Option Binary64 :=
  ofChars? s.toList

end TypedConfig.Binary64
