import TypedConfig.Duration.Basic

namespace TypedConfig.Duration

structure Part where
  count : Int
  unit : Unit
  deriving DecidableEq, Repr

def units : List Unit :=
  [.hour, .minute, .second, .millisecond, .microsecond, .nanosecond]

/-- As many of each unit as fit into what the units before it leave; units that do not fit are
left out. What is less than nothing takes from the first unit, so that all others add to it. -/
def decompose : List Unit → Int → List Part
  | [], _ => []
  | unit :: rest, n =>
    let count := n / unit.nanoseconds
    let parts := decompose rest (n % unit.nanoseconds)
    if count = 0 then parts else ⟨count, unit⟩ :: parts

def parts (nanoseconds : Int) : List Part :=
  decompose units nanoseconds

def Unit.constant : Unit → String
  | .hour => "time.Hour"
  | .minute => "time.Minute"
  | .second => "time.Second"
  | .millisecond => "time.Millisecond"
  | .microsecond => "time.Microsecond"
  | .nanosecond => "time.Nanosecond"

def Part.text (p : Part) : String :=
  toString p.count ++ "*" ++ p.unit.constant

def literal (nanoseconds : Int) : String :=
  if nanoseconds = 0 then "0"
  else
    let sum := " + ".intercalate ((parts nanoseconds.natAbs).map Part.text)
    if nanoseconds < 0 then "-(" ++ sum ++ ")" else sum

end TypedConfig.Duration
