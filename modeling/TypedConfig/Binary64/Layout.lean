import TypedConfig.Binary64.Shortest
import TypedConfig.Decimal.Numeral

namespace TypedConfig.Binary64

/-- Numbers whose decimal exponent lies from `low` to `high` are written with all their places,
the others with an exponent of at least `exponentDigits` digits. -/
structure Layout where
  low : Int
  high : Int
  exponentDigits : Nat

def significantDigits (coefficient : Nat) : List Char :=
  match ((Decimal.numeral coefficient).reverse.dropWhile (· == '0')).reverse with
  | [] => ['0']
  | digits => digits

def padLeft (width : Nat) (cs : List Char) : List Char :=
  List.replicate (width - cs.length) '0' ++ cs

def positional (digits : List Char) (exponent : Int) : List Char :=
  if exponent < 0 then '0' :: '.' :: List.replicate (-exponent - 1).toNat '0' ++ digits
  else
    let places := exponent.toNat + 1
    let whole := digits.take places ++ List.replicate (places - digits.length) '0'
    match digits.drop places with
    | [] => whole ++ ['.', '0']
    | fraction => whole ++ '.' :: fraction

def scientific (exponentDigits : Nat) (digits : List Char) (exponent : Int) : List Char :=
  let mantissa := match digits with
    | [] => []
    | [d] => [d]
    | d :: fraction => d :: '.' :: fraction
  mantissa ++ 'e' :: (if exponent < 0 then '-' else '+') ::
    padLeft exponentDigits (Decimal.numeral exponent.natAbs)

def Layout.finite (layout : Layout) (x : Finite) : List Char :=
  let decimal := if x.significand = 0 then ⟨0, 0⟩ else x.shortest
  let digits := significantDigits decimal.coefficient
  let exponent := decimal.exponent + (Decimal.numeral decimal.coefficient).length - 1
  let body :=
    if layout.low ≤ exponent && exponent ≤ layout.high then positional digits exponent
    else scientific layout.exponentDigits digits exponent
  if x.negative then '-' :: body else body

def plainLayout : Layout := ⟨-4, 15, 2⟩

def text : Binary64 → String
  | .nan => "nan"
  | .infinite negative => if negative then "-inf" else "inf"
  | .finite x => String.ofList (plainLayout.finite x)

end TypedConfig.Binary64
