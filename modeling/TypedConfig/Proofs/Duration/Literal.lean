import TypedConfig.Proofs.Duration.Grammar
import TypedConfig.Proofs.Go.Constant
import TypedConfig.Proofs.Go.Scalar
import Mathlib.Algebra.Order.BigOperators.Group.List

namespace TypedConfig.Duration

open Go (Token Expression IsDuration)

namespace Part

def nanoseconds (p : Part) : Int :=
  p.count * p.unit.nanoseconds

def tokens (p : Part) : List Token :=
  [.word (Decimal.numeral p.count.toNat), .symbol '*', .word p.unit.constant.toList]

def expression (p : Part) : Expression :=
  .operation .product (.number p.count.toNat) (.unit p.unit)

end Part

theorem Unit.nanoseconds_pos (u : Unit) : 0 < u.nanoseconds := by
  cases u <;> decide

theorem decompose_zero (us : List Unit) : decompose us 0 = [] := by
  induction us with
  | nil => rfl
  | cons u us ih => rw [decompose, Int.zero_ediv, Int.zero_emod, ih, if_pos rfl]

theorem sum_decompose_cons (u : Unit) (us : List Unit) (n : Int) :
    ((decompose (u :: us) n).map Part.nanoseconds).sum =
      n / u.nanoseconds * u.nanoseconds +
        ((decompose us (n % u.nanoseconds)).map Part.nanoseconds).sum := by
  rw [decompose]
  split
  · next h => rw [h, zero_mul, zero_add]
  · rw [List.map_cons, List.sum_cons, Part.nanoseconds]

/-- Nothing is left over once nanoseconds have been taken. -/
theorem sum_decompose {us : List Unit} (hus : .nanosecond ∈ us) (n : Int) :
    ((decompose us n).map Part.nanoseconds).sum = n := by
  induction us generalizing n with
  | nil => cases hus
  | cons u us ih =>
      rw [sum_decompose_cons]
      obtain rfl | hus := List.mem_cons.1 hus
      · simp [Unit.nanoseconds, decompose_zero]
      · rw [ih hus, Int.ediv_mul_add_emod]

theorem count_nonneg {us : List Unit} {n : Int} (hn : 0 ≤ n) :
    ∀ p ∈ decompose us n, 0 ≤ p.count := by
  induction us generalizing n with
  | nil => simp [decompose]
  | cons u us ih =>
      have hu : (0 : Int) < u.nanoseconds := Int.natCast_pos.2 u.nanoseconds_pos
      have hrest := ih (Int.emod_nonneg n hu.ne')
      rw [decompose]
      split
      · exact hrest
      · exact List.forall_mem_cons.2 ⟨Int.ediv_nonneg hn hu.le, hrest⟩

theorem toList_toString_of_nonneg {n : Int} (hn : 0 ≤ n) :
    (toString n).toList = Decimal.numeral n.toNat := by
  obtain ⟨m, rfl⟩ := Int.eq_ofNat_of_zero_le hn
  rw [Int.toString_eq_repr, Int.repr_eq_if, if_pos hn, Nat.toList_repr]
  rfl

theorem isWordChar_of_constant (u : Unit) : ∀ c ∈ u.constant.toList, Go.isWordChar c :=
  List.all_eq_true.1 (by cases u <;> rfl)

theorem isWordChar_of_numeral (n : ℕ) : ∀ c ∈ Decimal.numeral n, Go.isWordChar c := by
  intro c hc
  have hdigit : c.isDigit := Nat.isDigit_of_mem_toDigits (by decide) (by decide) hc
  simp [Go.isWordChar, Go.isNameChar, Char.isAlphanum, hdigit]

namespace Part

variable {p : Part} {ps : List Part} {rest : List Char}

theorem tokens_text (hp : 0 ≤ p.count) (hrest : ∀ c ∈ rest.head?, Go.isWordChar c = false) :
    Go.tokens [] (p.text.toList ++ rest) = p.tokens ++ Go.tokens [] rest := by
  have htext : p.text.toList ++ rest =
      Decimal.numeral p.count.toNat ++ '*' :: (p.unit.constant.toList ++ rest) := by
    rw [text, String.toList_append, String.toList_append, toList_toString_of_nonneg hp,
      List.append_assoc, List.append_assoc]
    rfl
  have hstar : ∀ c ∈ ('*' :: (p.unit.constant.toList ++ rest)).head?, Go.isWordChar c = false := by
    rintro _ ⟨⟩
    decide
  have hnumeral : Decimal.numeral p.count.toNat ≠ [] := Nat.toDigits_ne_nil
  have hconstant : p.unit.constant.toList ≠ [] := by
    cases p.unit <;> decide
  rw [htext, Go.tokens_word hnumeral (isWordChar_of_numeral _) hstar, Go.tokens_symbol (by decide),
    Go.tokens_word hconstant (isWordChar_of_constant _) hrest]
  rfl

def addends (ps : List Part) : List Token :=
  ps.flatMap fun p => .symbol '+' :: p.tokens

def added (x : Expression) (ps : List Part) : Expression :=
  ps.foldl (fun x p => .operation .sum x p.expression) x

theorem tokens_sum (hp : 0 ≤ p.count) (hps : ∀ q ∈ ps, 0 ≤ q.count) (rest : List Char)
    (hrest : ∀ c ∈ rest.head?, Go.isWordChar c = false) :
    Go.tokens [] ((" + ".intercalate ((p :: ps).map text)).toList ++ rest) =
      p.tokens ++ (addends ps ++ Go.tokens [] rest) := by
  induction ps generalizing p with
  | nil =>
      rw [List.map_singleton, String.intercalate_singleton, tokens_text hp hrest]
      rfl
  | cons q ps ih =>
      obtain ⟨hq, hps⟩ := List.forall_mem_cons.1 hps
      have hplus : Go.tokens [] (" + ".toList ++
          ((" + ".intercalate ((q :: ps).map text)).toList ++ rest)) =
          addends (q :: ps) ++ Go.tokens [] rest := by
        rw [addends, List.flatMap_cons, ← addends, List.append_assoc, List.cons_append,
          ← ih hq hps]
        rfl
      rw [List.map_cons, List.map_cons, String.intercalate_cons_cons, ← List.map_cons,
        String.toList_append, String.toList_append, List.append_assoc, List.append_assoc, ← hplus]
      refine tokens_text hp ?_
      rintro _ ⟨⟩
      decide

theorem length_le_addends (ps : List Part) : ps.length ≤ (addends ps).length := by
  induction ps with
  | nil => rfl
  | cons p ps ih =>
      rw [addends, List.flatMap_cons, ← addends, List.length_append, List.length_cons,
        List.length_cons]
      omega

theorem read_tokens (p : Part) (fuel : ℕ) {ts : List Token}
    (hts : ∀ t ∈ ts.head?, Go.multiplicative? t = none) :
    Go.readLevel Go.multiplicative? (Go.readFactor (fuel + 1)) (p.tokens ++ ts) =
      some (p.expression, ts) := by
  have hcount : Go.readFactor (fuel + 1) (p.tokens ++ ts) =
      some (.number p.count.toNat, .symbol '*' :: .word p.unit.constant.toList :: ts) :=
    Go.readFactor_word (Go.atom?_numeral _) fuel _
  have hunit : Go.readFactor (fuel + 1) (.word p.unit.constant.toList :: ts) =
      some (.unit p.unit, ts) :=
    Go.readFactor_word (Go.atom?_constant p.unit) fuel ts
  rw [Go.readLevel_eq hcount, List.length_cons, Go.readOperations_cons rfl hunit,
    Go.readOperations_of_stop hts]
  rfl

section Sum

variable (ts : List Token) (hadd : ∀ t ∈ ts.head?, Go.additive? t = none)
  (hmul : ∀ t ∈ ts.head?, Go.multiplicative? t = none)

include hmul

/-- A part ends where the next one is added or where the sum ends. -/
theorem multiplicative?_addends (ps : List Part) :
    ∀ t ∈ (addends ps ++ ts).head?, Go.multiplicative? t = none := by
  cases ps with
  | nil => exact hmul
  | cons p ps =>
      rintro _ ⟨⟩
      rfl

include hadd

theorem readOperations_addends (ps : List Part) {operations : ℕ} (h : ps.length ≤ operations)
    (fuel : ℕ) (x : Expression) :
    Go.readOperations Go.additive? (Go.readLevel Go.multiplicative? (Go.readFactor (fuel + 1)))
      operations x (addends ps ++ ts) = some (added x ps, ts) := by
  induction ps generalizing operations x with
  | nil => exact Go.readOperations_of_stop hadd
  | cons p ps ih =>
      obtain ⟨operations, rfl⟩ := Nat.exists_eq_add_of_le' (Nat.one_le_of_lt h)
      have hread := read_tokens p fuel (multiplicative?_addends ts hmul ps)
      rw [addends, List.flatMap_cons, ← addends, List.append_assoc, List.cons_append,
        Go.readOperations_cons rfl hread]
      exact ih (Nat.le_of_succ_le_succ h) _

theorem readSum_tokens (p : Part) (ps : List Part) (fuel : ℕ) :
    Go.readSum (Go.readFactor (fuel + 1)) (p.tokens ++ (addends ps ++ ts)) =
      some (added p.expression ps, ts) := by
  have hlength : ps.length ≤ (addends ps ++ ts).length := by
    rw [List.length_append]
    exact Nat.le_add_right_of_le (length_le_addends ps)
  rw [Go.readSum, Go.readLevel_eq (read_tokens p fuel (multiplicative?_addends ts hmul ps))]
  exact readOperations_addends ts hadd hmul ps hlength fuel _

end Sum

theorem nanoseconds_nonneg (hp : 0 ≤ p.count) : 0 ≤ p.nanoseconds :=
  mul_nonneg hp (Int.natCast_nonneg _)

theorem evaluate_expression (hp : 0 ≤ p.count) (h : p.nanoseconds < 2 ^ 63) :
    p.expression.evaluate = .ok (.duration p.nanoseconds) := by
  have htoNat : (p.count.toNat : ℤ) = p.count := Int.toNat_of_nonneg hp
  have hproduct : p.nanoseconds = Go.Operation.product.apply p.count.toNat p.unit.nanoseconds := by
    rw [htoNat]
    rfl
  have hle : p.count ≤ p.nanoseconds :=
    le_mul_of_one_le_right hp (Int.ofNat_le.2 p.unit.nanoseconds_pos)
  have hnonneg := nanoseconds_nonneg hp
  have hcount : IsDuration p.count.toNat := by
    rw [htoNat]
    exact ⟨by omega, by omega⟩
  have hunit : IsDuration p.unit.nanoseconds := by
    cases p.unit <;> decide
  have hresult : IsDuration p.nanoseconds := ⟨by omega, h⟩
  rw [hproduct] at hresult ⊢
  exact Go.evaluate_operation (c := .untyped _) rfl rfl hcount hunit hresult

theorem sum_nanoseconds_nonneg (hps : ∀ p ∈ ps, 0 ≤ p.count) : 0 ≤ (ps.map nanoseconds).sum := by
  refine List.sum_nonneg fun m hm => ?_
  obtain ⟨p, hp, rfl⟩ := List.mem_map.1 hm
  exact nanoseconds_nonneg (hps p hp)

/-- No partial sum is larger than the whole sum, as no part is negative. -/
theorem evaluate_added {x : Expression} {n : ℤ} (hx : x.evaluate = .ok (.duration n))
    (hn : 0 ≤ n) (hps : ∀ p ∈ ps, 0 ≤ p.count) (h : n + (ps.map nanoseconds).sum < 2 ^ 63) :
    (added x ps).evaluate = .ok (.duration (n + (ps.map nanoseconds).sum)) := by
  induction ps generalizing x n with
  | nil => simpa [added] using hx
  | cons p ps ih =>
      obtain ⟨hp, hps⟩ := List.forall_mem_cons.1 hps
      have hpart := nanoseconds_nonneg hp
      have hrest := sum_nanoseconds_nonneg hps
      rw [List.map_cons, List.sum_cons] at h ⊢
      have hn' : IsDuration n := ⟨by omega, by omega⟩
      have hp' : IsDuration p.nanoseconds := ⟨by omega, by omega⟩
      have hsum : IsDuration (n + p.nanoseconds) := ⟨by omega, by omega⟩
      have hnext := Go.evaluate_operation (o := .sum) (c := .duration n) hx
        (evaluate_expression hp hp'.2) hn' hp' hsum
      rw [← add_assoc] at h ⊢
      exact ih hnext (add_nonneg hn hpart) hps h

end Part

section Expressions

variable {p : Part} {ps : List Part} (hp : 0 ≤ p.count) (hps : ∀ q ∈ ps, 0 ≤ q.count)

include hp hps

theorem readExpression_sum :
    Go.readExpression (Go.tokens [] (" + ".intercalate ((p :: ps).map Part.text)).toList) =
      some (Part.added p.expression ps) := by
  have htokens := Part.tokens_sum hp hps [] (by simp)
  have hread := Part.readSum_tokens [] (by simp) (by simp) p ps
  rw [List.append_nil] at htokens
  rw [htokens]
  exact Go.readExpression_eq rfl (hread _)

theorem readExpression_negation :
    Go.readExpression
        (Go.tokens [] ("-(" ++ " + ".intercalate ((p :: ps).map Part.text) ++ ")").toList) =
      some (.operation .difference (.number 0) (Part.added p.expression ps)) := by
  have hclose : ∀ c ∈ [')'].head?, Go.isWordChar c = false := by
    rintro _ ⟨⟩
    rfl
  have htokens := Part.tokens_sum hp hps [')'] hclose
  have hread := Part.readSum_tokens [.symbol ')'] (by decide) (by decide) p ps
  have htext : ("-(" ++ " + ".intercalate ((p :: ps).map Part.text) ++ ")").toList =
      '-' :: '(' :: ((" + ".intercalate ((p :: ps).map Part.text)).toList ++ [')']) := by
    rw [String.toList_append, String.toList_append]
    rfl
  rw [htext, Go.tokens_symbol (by decide), Go.tokens_symbol (by decide), htokens]
  exact Go.readExpression_eq rfl (Go.readSum_of_factor (Go.readFactor_negation (hread _)))

end Expressions

section Signs

variable {p : Part} {ps : List Part} (hp : 0 ≤ p.count) (hps : ∀ q ∈ ps, 0 ≤ q.count) {n : ℤ}
  (hn : p.nanoseconds + (ps.map Part.nanoseconds).sum = n) (h : n < 2 ^ 63)

include hp hps hn

theorem nonneg_of_sum : 0 ≤ n :=
  hn ▸ add_nonneg (Part.nanoseconds_nonneg hp) (Part.sum_nanoseconds_nonneg hps)

include h

theorem evaluate_sum : (Part.added p.expression ps).evaluate = .ok (.duration n) := by
  have hrest := Part.sum_nanoseconds_nonneg hps
  rw [← hn] at h ⊢
  exact Part.evaluate_added (Part.evaluate_expression hp (by omega)) (Part.nanoseconds_nonneg hp)
    hps h

theorem durationValue_sum :
    Go.durationValue (" + ".intercalate ((p :: ps).map Part.text)) = .ok n := by
  have hnonneg := nonneg_of_sum hp hps hn
  exact Go.durationValue_eq (readExpression_sum hp hps) (evaluate_sum hp hps hn h)
    ⟨by omega, h⟩

theorem durationValue_negation :
    Go.durationValue ("-(" ++ " + ".intercalate ((p :: ps).map Part.text) ++ ")") = .ok (-n) := by
  have hnonneg := nonneg_of_sum hp hps hn
  have hn' : IsDuration n := ⟨by omega, h⟩
  have hneg : IsDuration (-n) := ⟨by omega, by omega⟩
  exact Go.durationValue_eq (readExpression_negation hp hps)
    (Go.evaluate_negation (evaluate_sum hp hps hn h) hn' hneg) hneg

end Signs

/-- A duration that is not zero is the sum of at least one part, or the negation of such a sum. -/
theorem exists_parts {n : ℤ} (hn : n ≠ 0) : ∃ p ps, parts n.natAbs = p :: ps ∧ 0 ≤ p.count ∧
    (∀ q ∈ ps, 0 ≤ q.count) ∧ p.nanoseconds + (ps.map Part.nanoseconds).sum = n.natAbs := by
  have hunit : Unit.nanosecond ∈ units := by decide
  have hne := Int.natCast_ne_zero.2 (Int.natAbs_ne_zero.2 hn)
  have hsum : ((parts n.natAbs).map Part.nanoseconds).sum = n.natAbs := sum_decompose hunit _
  have hcount : ∀ p ∈ parts n.natAbs, 0 ≤ p.count := count_nonneg (Int.natCast_nonneg _)
  obtain ⟨p, ps, hparts⟩ := List.exists_cons_of_ne_nil (Go.decompose_ne_nil hunit hne)
  rw [← parts] at hparts
  rw [hparts, List.map_cons, List.sum_cons] at hsum
  rw [hparts] at hcount
  obtain ⟨hp, hps⟩ := List.forall_mem_cons.1 hcount
  exact ⟨p, ps, hparts, hp, hps, hsum⟩

theorem durationValue_literal {n : ℤ} (h : n.natAbs < 2 ^ 63) :
    Go.durationValue (literal n) = .ok n := by
  by_cases hzero : n = 0
  · subst hzero
    decide +kernel
  obtain ⟨p, ps, hparts, hp, hps, hsum⟩ := exists_parts hzero
  rw [literal, if_neg hzero, hparts]
  dsimp only
  split
  · rw [durationValue_negation hp hps hsum (by omega)]
    congr 1
    omega
  · rw [durationValue_sum hp hps hsum (by omega)]
    congr 1
    omega

/-- The sum in the literal of the least duration is one more than the largest. -/
theorem durationValue_literal_min :
    Go.durationValue (literal (-2 ^ 63)) = .error (.overflow (2 ^ 63)) := by
  decide +kernel

/-- The literal of a duration that was read evaluates to it, without an overflow anywhere, unless it
is the least one, whose literal does not evaluate. -/
theorem literal_evaluates_iff {text : String} {n : ℤ} (h : parse text = .ok n) :
    (Go.durationValue (literal n) = .ok n ↔ n ≠ -2 ^ 63) ∧
      (n = -2 ^ 63 → Go.durationValue (literal n) = .error (.overflow (2 ^ 63))) := by
  obtain ⟨hlow, hhigh⟩ := (spells_of_parse h).bounds
  refine ⟨⟨?_, fun hn => durationValue_literal (by omega)⟩, ?_⟩
  · rintro hvalue rfl
    rw [durationValue_literal_min] at hvalue
    cases hvalue
  · rintro rfl
    exact durationValue_literal_min

theorem literal_evaluates_halfHours : parse "-1.5h" = .ok (-5400000000000) ∧
    Go.durationValue (literal (-5400000000000)) = .ok (-5400000000000) := by
  have hparse : parse "-1.5h" = .ok (-5400000000000) := rfl
  exact ⟨hparse, (literal_evaluates_iff hparse).1.2 (by decide)⟩

theorem not_all_literals_evaluate : ¬ ∀ (text : String) (n : ℤ), parse text = .ok n →
    Go.durationValue (literal n) = .ok n := by
  intro h
  have hmin := h "-9223372036854775808ns" (-2 ^ 63) (by decide +kernel)
  rw [durationValue_literal_min] at hmin
  cases hmin

/-- The least duration has a literal without a sum that is too large. -/
example : Go.durationValue ("-2562047*time.Hour - 47*time.Minute - 16*time.Second" ++
    " - 854*time.Millisecond - 775*time.Microsecond - 808*time.Nanosecond") = .ok (-2 ^ 63) := by
  decide +kernel

end TypedConfig.Duration
