import TypedConfig.Decimal.Numeral
import TypedConfig.Text.Quoted

namespace TypedConfig.Duration

inductive Unit where
  | nanosecond | microsecond | millisecond | second | minute | hour
  deriving DecidableEq, Repr

def Unit.nanoseconds : Unit → Nat
  | .nanosecond => 1
  | .microsecond => 1000
  | .millisecond => 1000000
  | .second => 1000000000
  | .minute => 60000000000
  | .hour => 3600000000000

def Unit.ofName? (name : List Char) : Option Unit :=
  if name = ['n', 's'] then some .nanosecond
  else if name = ['u', 's'] ∨ name = ['µ', 's'] ∨ name = ['μ', 's'] then some .microsecond
  else if name = ['m', 's'] then some .millisecond
  else if name = ['s'] then some .second
  else if name = ['m'] then some .minute
  else if name = ['h'] then some .hour
  else none

inductive ParseError where
  | malformed (text : String)
  | missingUnit (text : String)
  | unknownUnit (name text : String)
  | tooManyDigits (error : Decimal.LimitError)
  deriving DecidableEq, Repr

def ParseError.message : ParseError → String
  | .malformed text => "invalid duration " ++ Text.shown text
  | .missingUnit text => "missing unit in duration " ++ Text.shown text
  | .unknownUnit name text =>
    "unknown unit " ++ Text.shown name ++ " in duration " ++ Text.shown text
  | .tooManyDigits error => error.message

structure Group where
  whole : Nat
  fraction : Nat
  places : Nat
  unit : Unit
  deriving DecidableEq, Repr

def Group.nanoseconds (g : Group) : Nat :=
  g.whole * g.unit.nanoseconds + g.fraction * g.unit.nanoseconds / Nat.pow 10 g.places

def isUnitChar (c : Char) : Bool :=
  c != '.' && !Decimal.isDigit c

def splitNumber (cs : List Char) : List Char × List Char × List Char :=
  let whole := cs.takeWhile Decimal.isDigit
  match cs.dropWhile Decimal.isDigit with
  | '.' :: rest => (whole, rest.takeWhile Decimal.isDigit, rest.dropWhile Decimal.isDigit)
  | rest => (whole, [], rest)

def scanGroup (text : String) (cs : List Char) : Except ParseError (Group × List Char) := do
  let (whole, fraction, rest) := splitNumber cs
  if whole.isEmpty && fraction.isEmpty then throw (.malformed text)
  let name := rest.takeWhile isUnitChar
  if name.isEmpty then throw (.missingUnit text)
  match Unit.ofName? name with
  | none => throw (.unknownUnit (String.ofList name) text)
  | some unit =>
    let whole ← (Decimal.readNat whole).mapError .tooManyDigits
    let part ← (Decimal.readNat fraction).mapError .tooManyDigits
    return (⟨whole, part, fraction.length, unit⟩, rest.dropWhile isUnitChar)

def limit (negative : Bool) : Nat :=
  if negative then 1 <<< 63 else (1 <<< 63) - 1

/-- Adds up the groups of a text; every group takes at least one character, so `fuel` may be
their number. -/
def sumGroups (text : String) (negative : Bool) : Nat → Nat → List Char → Except ParseError Nat
  | _, total, [] => .ok total
  | 0, _, _ => .error (.malformed text)
  | fuel + 1, total, cs => do
    let (group, rest) ← scanGroup text cs
    let total := total + group.nanoseconds
    if limit negative < total then throw (.malformed text)
    sumGroups text negative fuel total rest

def parse (text : String) : Except ParseError Int := do
  let (negative, cs) := Decimal.splitSign text.toList
  if cs = ['0'] then return 0
  if cs.isEmpty then throw (.malformed text)
  let total ← sumGroups text negative cs.length 0 cs
  return Decimal.signed negative total

def isDuration (text : String) : Bool :=
  (parse text).isOk

end TypedConfig.Duration
