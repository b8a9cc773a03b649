namespace TypedConfig.Calendar

structure Date where
  year : Nat
  month : Nat
  day : Nat
  deriving DecidableEq, Repr

structure Clock where
  hour : Nat
  minute : Nat
  second : Nat
  microsecond : Nat
  deriving DecidableEq, Repr

inductive Moment where
  | date (date : Date)
  | clock (clock : Clock)
  | stamp (date : Date) (clock : Clock) (offset : Option Int)
  deriving DecidableEq, Repr

def isLeapYear (year : Nat) : Bool :=
  year % 4 == 0 && (year % 100 != 0 || year % 400 == 0)

def daysInMonth (year month : Nat) : Nat :=
  match month with
  | 2 => if isLeapYear year then 29 else 28
  | 4 | 6 | 9 | 11 => 30
  | _ => 31

def Date.isValid (d : Date) : Bool :=
  1 ≤ d.year && d.year ≤ 9999 && 1 ≤ d.month && d.month ≤ 12 &&
    1 ≤ d.day && d.day ≤ daysInMonth d.year d.month

def Date.dayNumber (d : Date) : Nat :=
  let before := d.year - 1
  let months := (List.range (d.month - 1)).map fun m => daysInMonth d.year (m + 1)
  365 * before + before / 4 - before / 100 + before / 400 + months.foldl (· + ·) 0 + (d.day - 1)

def Clock.microseconds (c : Clock) : Nat :=
  ((c.hour * 60 + c.minute) * 60 + c.second) * 1000000 + c.microsecond

def instant (d : Date) (c : Clock) (offset : Int) : Int :=
  d.dayNumber * 86400000000 + c.microseconds - offset * 60000000

/-- Moments with an offset are equal if they are the same instant. A local moment equals only
itself, and moments of different sorts are never equal. -/
def Moment.equal : Moment → Moment → Bool
  | .date a, .date b => a == b
  | .clock a, .clock b => a == b
  | .stamp d c (some o), .stamp d' c' (some o') => instant d c o == instant d' c' o'
  | .stamp d c none, .stamp d' c' none => d == d' && c == c'
  | _, _ => false

def digits (width n : Nat) : String :=
  let text := toString n
  String.ofList (List.replicate (width - text.length) '0') ++ text

def Date.text (d : Date) : String :=
  digits 4 d.year ++ "-" ++ digits 2 d.month ++ "-" ++ digits 2 d.day

def Clock.text (c : Clock) : String :=
  digits 2 c.hour ++ ":" ++ digits 2 c.minute ++ ":" ++ digits 2 c.second ++
    if c.microsecond = 0 then "" else "." ++ digits 6 c.microsecond

def offsetText (offset : Int) : String :=
  (if offset < 0 then "-" else "+") ++ digits 2 (offset.natAbs / 60) ++ ":" ++
    digits 2 (offset.natAbs % 60)

def Moment.textWith (writeOffset : Int → String) : Moment → String
  | .date d => d.text
  | .clock c => c.text
  | .stamp d c offset => d.text ++ "T" ++ c.text ++ (offset.map writeOffset).getD ""

def Moment.text : Moment → String := textWith offsetText

end TypedConfig.Calendar
