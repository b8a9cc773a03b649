namespace TypedConfig

/-- The number `significand * 2 ^ exponent` units, with its sign. The bounds leave each number
one representation, apart from the two zeros. -/
structure Binary64.Finite where
  negative : Bool
  significand : Nat
  exponent : Nat
  significand_lt : significand < 1 <<< 53
  normal : 1 <<< 52 ≤ significand ∨ exponent = 0
  exponent_le : exponent ≤ 2045
  deriving DecidableEq

inductive Binary64 where
  | nan
  | infinite (negative : Bool)
  | finite (x : Binary64.Finite)
  deriving DecidableEq

namespace Binary64

def unitsPerOne : Nat := 1 <<< 1074

def Finite.magnitude (x : Finite) : Nat :=
  x.significand <<< x.exponent

def Finite.units (x : Finite) : Int :=
  if x.negative then -(x.magnitude : Int) else x.magnitude

def Finite.abs (x : Finite) : Finite :=
  { x with negative := false }

def roundQuotient (num den : Nat) : Nat :=
  let q := num / den
  let r := num % den
  if 2 * r < den then q
  else if den < 2 * r then q + 1
  else if q % 2 = 0 then q else q + 1

/-- A rounded significand with its exponent. Rounding up may have reached `2 ^ 53`, which is
`2 ^ 52` at the next exponent; beyond the last exponent lies infinity. -/
def assemble (negative : Bool) (significand exponent : Nat) : Binary64 :=
  if h : significand < 1 <<< 53 ∧ (1 <<< 52 ≤ significand ∨ exponent = 0) ∧ exponent ≤ 2045 then
    .finite ⟨negative, significand, exponent, h.1, h.2.1, h.2.2⟩
  else if h : significand = 1 <<< 53 ∧ exponent < 2045 then
    .finite ⟨negative, 1 <<< 52, exponent + 1, by decide, .inl (Nat.le_refl _), h.2⟩
  else .infinite negative

def ofQuotient (negative : Bool) (num den : Nat) : Binary64 :=
  let scaled := num * unitsPerOne
  let exponent := Nat.log2 (scaled / den) - 52
  assemble negative (roundQuotient scaled (den <<< exponent)) exponent

def exponentBound : Nat := 400

def ofDecimal (negative : Bool) (coefficient : Nat) (exponent : Int) : Binary64 :=
  if coefficient = 0 then ofQuotient negative 0 1
  else if exponent > exponentBound then .infinite negative
  else if exponent ≥ 0 then ofQuotient negative (coefficient * Nat.pow 10 exponent.toNat) 1
  else if -exponent > Nat.log2 coefficient + 1 + exponentBound then ofQuotient negative 0 1
  else ofQuotient negative coefficient (Nat.pow 10 (-exponent).toNat)

def equal : Binary64 → Binary64 → Bool
  | .finite x, .finite y => x.units == y.units
  | .infinite a, .infinite b => a == b
  | _, _ => false

def equalInt : Binary64 → Int → Bool
  | .finite x, n => x.units == n * unitsPerOne
  | _, _ => false

def isInfinite : Binary64 → Bool
  | .infinite _ => true
  | _ => false

end Binary64
end TypedConfig
