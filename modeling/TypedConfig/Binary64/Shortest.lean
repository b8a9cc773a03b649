import TypedConfig.Binary64.Basic

namespace TypedConfig.Binary64

structure Decimal where
  coefficient : Nat
  exponent : Int
  deriving DecidableEq, Repr

/-- The magnitude of a number as a whole number of `10 ^ -1074`, which is exact since the unit
`2 ^ -1074` is `5 ^ 1074` of these. -/
def Finite.exact (x : Finite) : Decimal :=
  ⟨x.magnitude * Nat.pow 5 1074, -1074⟩

def Decimal.reads (d : Decimal) (x : Finite) : Bool :=
  ofDecimal false d.coefficient d.exponent == .finite x.abs

/-- Of the two decimals with `count` digits on either side of a number, those that read back as
it, the nearer first; the even one is first if both are equally near. -/
def Finite.neighbours (x : Finite) (length count : Nat) : List Decimal :=
  let dropped := length - count
  let scale := Nat.pow 10 dropped
  let exact := x.exact.coefficient
  let below := exact / scale
  let rest := exact % scale
  let exponent := x.exact.exponent + dropped
  let lower : Decimal := ⟨below, exponent⟩
  let upper : Decimal := ⟨below + 1, exponent⟩
  let belowFirst := 2 * rest < scale || (2 * rest == scale && below % 2 == 0)
  (if belowFirst then [lower, upper] else [upper, lower]).filter (·.reads x)

/-- The fewest digits that read back as the number, and of these the nearest to it. Seventeen
always suffice; the exact decimal stands behind them. -/
def Finite.shortest (x : Finite) : Decimal :=
  let length := (Nat.toDigits 10 x.exact.coefficient).length
  ((List.range 17).findSome? fun i => (x.neighbours length (i + 1)).head?).getD x.exact

end TypedConfig.Binary64
