import TypedConfig.Duration.Parts
import TypedConfig.Proofs.Go.Qualifier
import Mathlib.Algebra.Group.Int.Defs

/-!
Constant expressions of whole numbers and durations as they stand in source text, and what they
evaluate to. A constant that has a type must be representable in it, and so must every operand
and result on the way (`Expression.evaluate`).
-/

namespace TypedConfig.Go

inductive Token where
  | word (cs : List Char)
  | symbol (c : Char)
  deriving DecidableEq

def isWordChar (c : Char) : Bool :=
  isNameChar c || c == '.'

def wordToken (word : List Char) : List Token :=
  if word.isEmpty then [] else [.word word]

def symbolToken (c : Char) : List Token :=
  if c = ' ' ∨ c = '\t' then [] else [.symbol c]

def tokens (word : List Char) : List Char → List Token
  | [] => wordToken word
  | c :: rest =>
    if isWordChar c then tokens (word ++ [c]) rest
    else wordToken word ++ symbolToken c ++ tokens [] rest

inductive Operation where
  | sum | difference | product
  deriving DecidableEq

def Operation.apply : Operation → Int → Int → Int
  | .sum, m, n => m + n
  | .difference, m, n => m - n
  | .product, m, n => m * n

inductive Expression where
  | number (n : Nat)
  | unit (unit : Duration.Unit)
  | operation (o : Operation) (left right : Expression)
  deriving DecidableEq

def atom? (word : List Char) : Option Expression :=
  if Decimal.numeral (Decimal.value word) = word then some (.number (Decimal.value word))
  else (Duration.units.find? fun u => u.constant.toList = word).map .unit

abbrev Reader :=
  List Token → Option (Expression × List Token)

def additive? : Token → Option Operation
  | .symbol '+' => some .sum
  | .symbol '-' => some .difference
  | _ => none

def multiplicative? : Token → Option Operation
  | .symbol '*' => some .product
  | _ => none

section Levels

variable (operator? : Token → Option Operation) (operand : Reader)

def readOperations : Nat → Expression → Reader
  | fuel + 1, x, t :: ts =>
    match operator? t with
    | none => some (x, t :: ts)
    | some o => do
      let (y, rest) ← operand ts
      readOperations fuel (.operation o x y) rest
  | _, x, ts => some (x, ts)

def readLevel : Reader := fun ts => do
  let (x, rest) ← operand ts
  readOperations operator? operand rest.length x rest

end Levels

def readSum (factor : Reader) : Reader :=
  readLevel additive? (readLevel multiplicative? factor)

def readFactor : Nat → Reader
  | fuel + 1, .symbol '-' :: ts => do
    let (x, rest) ← readFactor fuel ts
    return (.operation .difference (.number 0) x, rest)
  | fuel + 1, .symbol '(' :: ts => do
    match ← readSum (readFactor fuel) ts with
    | (x, .symbol ')' :: rest) => return (x, rest)
    | _ => none
  | _ + 1, .word word :: ts => (atom? word).map (·, ts)
  | _, _ => none

def readExpression (ts : List Token) : Option Expression :=
  match readSum (readFactor ts.length) ts with
  | some (x, []) => some x
  | _ => none

inductive Constant where
  | untyped (n : Int)
  | duration (n : Int)
  deriving DecidableEq

def Constant.number : Constant → Int
  | .untyped n | .duration n => n

inductive ConstantError where
  | malformed
  | overflow (n : Int)
  deriving DecidableEq

def IsDuration (n : Int) : Prop :=
  -2 ^ 63 ≤ n ∧ n < 2 ^ 63

instance (n : Int) : Decidable (IsDuration n) :=
  inferInstanceAs (Decidable (_ ∧ _))

def asDuration (n : Int) : Except ConstantError Int :=
  if IsDuration n then .ok n else .error (.overflow n)

def Operation.evaluate (o : Operation) : Constant → Constant → Except ConstantError Constant
  | .untyped m, .untyped n => .ok (.untyped (o.apply m n))
  | x, y => do
    let m ← asDuration x.number
    let n ← asDuration y.number
    .duration <$> asDuration (o.apply m n)

def Expression.evaluate : Expression → Except ConstantError Constant
  | .number n => .ok (.untyped n)
  | .unit u => .ok (.duration u.nanoseconds)
  | .operation o x y => do o.evaluate (← x.evaluate) (← y.evaluate)

/-- The duration that a variable of this type gets from a constant expression. -/
def durationValue (text : String) : Except ConstantError Int :=
  match readExpression (tokens [] text.toList) with
  | none => .error .malformed
  | some x => do asDuration (← x.evaluate).number

section Tokens

variable {word cs rest : List Char}

theorem tokens_append (hcs : ∀ c ∈ cs, isWordChar c) :
    tokens word (cs ++ rest) = tokens (word ++ cs) rest := by
  induction cs generalizing word with
  | nil => rw [List.nil_append, List.append_nil]
  | cons c cs ih =>
      obtain ⟨hc, hcs⟩ := List.forall_mem_cons.1 hcs
      rw [List.cons_append, tokens, if_pos hc, ih hcs, List.append_assoc, List.singleton_append]

theorem tokens_symbol {c : Char} (hc : isWordChar c = false) :
    tokens [] (c :: rest) = symbolToken c ++ tokens [] rest := by
  rw [tokens, hc]
  rfl

/-- A word ends where a character follows that belongs to no word. -/
theorem tokens_word (hne : cs ≠ []) (hcs : ∀ c ∈ cs, isWordChar c)
    (hrest : ∀ c ∈ rest.head?, isWordChar c = false) :
    tokens [] (cs ++ rest) = .word cs :: tokens [] rest := by
  have hword : wordToken cs = [.word cs] := by simp [wordToken, hne]
  rw [tokens_append hcs, List.nil_append]
  cases rest with
  | nil => exact hword
  | cons c rest =>
      have hc := hrest c rfl
      rw [tokens_symbol hc, tokens, hc, hword]
      rfl

end Tokens

theorem value_numeral (n : Nat) : Decimal.value (Decimal.numeral n) = n :=
  Nat.ofDigitChars_toDigits (by decide) (by decide)

theorem atom?_numeral (n : Nat) : atom? (Decimal.numeral n) = some (.number n) := by
  rw [atom?, value_numeral, if_pos rfl]

theorem atom?_constant (u : Duration.Unit) : atom? u.constant.toList = some (.unit u) := by
  cases u <;> decide

section Levels

variable {operator? : Token → Option Operation} {operand : Reader} {x y : Expression}
  {ts rest : List Token} {fuel : Nat}

theorem readOperations_of_stop (h : ∀ t ∈ ts.head?, operator? t = none) :
    readOperations operator? operand fuel x ts = some (x, ts) := by
  cases fuel with
  | zero => rfl
  | succ fuel =>
      cases ts with
      | nil => rfl
      | cons t ts => rw [readOperations, h t rfl]

theorem readOperations_cons {t : Token} {o : Operation} (ht : operator? t = some o)
    (hts : operand ts = some (y, rest)) : readOperations operator? operand (fuel + 1) x (t :: ts) =
      readOperations operator? operand fuel (.operation o x y) rest := by
  rw [readOperations, ht, hts]
  rfl

theorem readLevel_eq (h : operand ts = some (x, rest)) :
    readLevel operator? operand ts = readOperations operator? operand rest.length x rest := by
  rw [readLevel, h]
  rfl

end Levels

theorem readFactor_word {word : List Char} {x : Expression} (h : atom? word = some x) (fuel : Nat)
    (ts : List Token) : readFactor (fuel + 1) (.word word :: ts) = some (x, ts) := by
  rw [readFactor, h]
  rfl

theorem readFactor_negation {fuel : Nat} {x : Expression} {ts rest : List Token}
    (h : readSum (readFactor fuel) ts = some (x, .symbol ')' :: rest)) :
    readFactor (fuel + 2) (.symbol '-' :: .symbol '(' :: ts) =
      some (.operation .difference (.number 0) x, rest) := by
  rw [readFactor, readFactor, h]
  rfl

theorem readSum_of_factor {factor : Reader} {x : Expression} {ts : List Token}
    (h : factor ts = some (x, [])) : readSum factor ts = some (x, []) := by
  have hlevel : readLevel multiplicative? factor ts = some (x, []) := by
    rw [readLevel_eq h, readOperations_of_stop (by simp)]
  rw [readSum, readLevel_eq hlevel, readOperations_of_stop (by simp)]

theorem readExpression_eq {fuel : Nat} {x : Expression} {ts : List Token}
    (hfuel : ts.length = fuel) (h : readSum (readFactor fuel) ts = some (x, [])) :
    readExpression ts = some x := by
  rw [readExpression, hfuel, h]

theorem asDuration_of_isDuration {n : Int} (h : IsDuration n) : asDuration n = .ok n :=
  if_pos h

/-- A duration, like everything that it is made from. -/
theorem evaluate_operation {o : Operation} {x y : Expression} {c : Constant} {n : Int}
    (hx : x.evaluate = .ok c) (hy : y.evaluate = .ok (.duration n)) (hc : IsDuration c.number)
    (hn : IsDuration n) (h : IsDuration (o.apply c.number n)) :
    (Expression.operation o x y).evaluate = .ok (.duration (o.apply c.number n)) := by
  have heq : (Expression.operation o x y).evaluate = (do
      let m ← asDuration c.number
      let n ← asDuration n
      .duration <$> asDuration (o.apply m n)) := by
    rw [Expression.evaluate, hx, hy]
    cases c <;> rfl
  rw [heq, asDuration_of_isDuration hc, asDuration_of_isDuration hn]
  show Constant.duration <$> asDuration (o.apply c.number n) = _
  rw [asDuration_of_isDuration h]
  rfl

theorem evaluate_negation {x : Expression} {n : Int} (hx : x.evaluate = .ok (.duration n))
    (hn : IsDuration n) (h : IsDuration (-n)) :
    (Expression.operation .difference (.number 0) x).evaluate = .ok (.duration (-n)) := by
  rw [← Int.zero_sub] at h ⊢
  exact evaluate_operation (c := .untyped 0) rfl hx (by decide) hn h

theorem durationValue_eq {text : String} {x : Expression} {n : Int}
    (hread : readExpression (tokens [] text.toList) = some x)
    (hx : x.evaluate = .ok (.duration n)) (hn : IsDuration n) : durationValue text = .ok n := by
  rw [durationValue, hread]
  show (do asDuration (← x.evaluate).number) = _
  rw [hx]
  exact asDuration_of_isDuration hn

end TypedConfig.Go
