import TypedConfig.Duration.Basic
import TypedConfig.Proofs.Outcome
import TypedConfig.Proofs.Text.Blank
import Mathlib.Algebra.Order.Floor.Semifield
import Mathlib.Data.List.TakeWhile
import Mathlib.Data.Rat.Floor

namespace TypedConfig.Duration

open Decimal (isDigit maxDigits value)
open Text (takeWhile_append_of_stop dropWhile_append_of_stop)

def Unit.names : Unit → List (List Char)
  | .nanosecond => [['n', 's']]
  | .microsecond => [['u', 's'], ['µ', 's'], ['μ', 's']]
  | .millisecond => [['m', 's']]
  | .second => [['s']]
  | .minute => [['m']]
  | .hour => [['h']]

/-- A decimal number and the name of a unit. At least one digit stands before or behind the
point, which may be missing. -/
structure Term where
  whole : List Char
  fraction : Option (List Char)
  unit : Unit
  name : List Char
  whole_digits : ∀ c ∈ whole, isDigit c
  fraction_digits : ∀ c ∈ fraction.getD [], isDigit c
  has_digit : whole ≠ [] ∨ fraction.getD [] ≠ []
  name_mem : name ∈ unit.names

namespace Term

def text (t : Term) : List Char :=
  t.whole ++ t.fraction.elim [] ('.' :: ·) ++ t.name

def decimals (t : Term) : List Char :=
  t.fraction.getD []

def amount (t : Term) : ℚ :=
  value t.whole + value t.decimals / 10 ^ t.decimals.length

def nanoseconds (t : Term) : ℕ :=
  ⌊t.amount * t.unit.nanoseconds⌋₊

def Readable (t : Term) : Prop :=
  t.whole.length ≤ maxDigits ∧ t.decimals.length ≤ maxDigits

def group (t : Term) : Group :=
  ⟨value t.whole, value t.decimals, t.decimals.length, t.unit⟩

theorem nanoseconds_group (t : Term) : t.group.nanoseconds = t.nanoseconds := by
  have hsum : t.amount * t.unit.nanoseconds =
      ((value t.decimals * t.unit.nanoseconds : ℕ) : ℚ) / ((10 ^ t.decimals.length : ℕ) : ℚ) +
        ((value t.whole * t.unit.nanoseconds : ℕ) : ℚ) := by
    rw [amount]
    push_cast
    ring
  rw [nanoseconds, hsum, Nat.floor_add_natCast (by positivity), Nat.floor_div_eq_div, add_comm]
  rfl

end Term

inductive Sign where
  | absent | plus | minus

def Sign.text : Sign → List Char
  | .absent => []
  | .plus => ['+']
  | .minus => ['-']

def Sign.apply : Sign → ℕ → ℤ
  | .minus, n => -n
  | _, n => n

def Sign.most : Sign → ℕ
  | .minus => 2 ^ 63
  | _ => 2 ^ 63 - 1

/-- The text is `0` or a row of terms, perhaps behind a sign, and stands for `n` nanoseconds. -/
inductive Spells (text : String) : ℤ → Prop
  | zero (sign : Sign) (h : text.toList = sign.text ++ ['0']) : Spells text 0
  | terms (sign : Sign) (terms : List Term) (hne : terms ≠ []) (hread : ∀ t ∈ terms, t.Readable)
      (h : text.toList = sign.text ++ terms.flatMap Term.text)
      (hmost : (terms.map Term.nanoseconds).sum ≤ sign.most) :
      Spells text (sign.apply (terms.map Term.nanoseconds).sum)

theorem Unit.ofName?_of_mem_names (unit : Unit) :
    ∀ name ∈ unit.names, Unit.ofName? name = some unit := by
  cases unit <;> decide

theorem Unit.mem_names_of_ofName? {name : List Char} {unit : Unit}
    (h : Unit.ofName? name = some unit) : name ∈ unit.names := by
  unfold ofName? at h
  split_ifs at h with hns hus hms hs hm hh
  all_goals
    cases h
    simp [names, *]

theorem Unit.ne_nil_of_mem_names {name : List Char} {unit : Unit} (h : name ∈ unit.names) :
    name ≠ [] := by
  rintro rfl
  cases unit <;> simp [names] at h

theorem Unit.isUnitChar_of_mem_names {name : List Char} {unit : Unit} (h : name ∈ unit.names) :
    ∀ c ∈ name, isUnitChar c := by
  have hall : (unit.names.all fun name => name.all isUnitChar) = true := by
    cases unit <;> rfl
  exact List.all_eq_true.1 (List.all_eq_true.1 hall name h)

theorem isUnitChar_iff {c : Char} : isUnitChar c ↔ c ≠ '.' ∧ isDigit c = false := by
  simp [isUnitChar]

theorem splitNumber_of_point {cs tail : List Char} (h : cs.dropWhile isDigit = '.' :: tail) :
    splitNumber cs = (cs.takeWhile isDigit, tail.takeWhile isDigit, tail.dropWhile isDigit) := by
  rw [splitNumber, h]
  rfl

theorem splitNumber_of_no_point {cs : List Char}
    (h : ∀ tail, cs.dropWhile isDigit ≠ '.' :: tail) :
    splitNumber cs = (cs.takeWhile isDigit, [], cs.dropWhile isDigit) := by
  rw [splitNumber]
  split
  · next htail => exact absurd htail (h _)
  · rfl

theorem splitNumber_text (t : Term) (rest : List Char) :
    splitNumber (t.text ++ rest) = (t.whole, t.decimals, t.name ++ rest) := by
  have hunit : ∀ c ∈ (t.name ++ rest).head?, isUnitChar c := by
    intro c hc
    rw [List.head?_append_of_ne_nil _ (Unit.ne_nil_of_mem_names t.name_mem)] at hc
    exact Unit.isUnitChar_of_mem_names t.name_mem c (List.mem_of_mem_head? hc)
  have hstop : ∀ c ∈ (t.name ++ rest).head?, isDigit c = false :=
    fun c hc => (isUnitChar_iff.1 (hunit c hc)).2
  have hdecimals : ∀ c ∈ t.decimals, isDigit c := t.fraction_digits
  rw [Term.text, Term.decimals] at *
  cases hfraction : t.fraction with
  | none =>
      rw [Option.elim_none, List.append_nil, List.append_assoc, splitNumber_of_no_point,
        takeWhile_append_of_stop t.whole_digits hstop,
        dropWhile_append_of_stop t.whole_digits hstop]
      · rfl
      · intro tail htail
        rw [dropWhile_append_of_stop t.whole_digits hstop] at htail
        rw [htail] at hunit
        exact absurd rfl (isUnitChar_iff.1 (hunit '.' rfl)).1
  | some ds =>
      rw [hfraction, Option.getD_some] at hdecimals
      have hpoint : ∀ c ∈ ('.' :: (ds ++ (t.name ++ rest))).head?, isDigit c = false := by
        rintro _ ⟨⟩
        rfl
      rw [Option.elim_some, List.append_assoc, List.append_assoc, List.cons_append,
        splitNumber_of_point (dropWhile_append_of_stop t.whole_digits hpoint),
        takeWhile_append_of_stop t.whole_digits hpoint, takeWhile_append_of_stop hdecimals hstop,
        dropWhile_append_of_stop hdecimals hstop]
      rfl

/-- What is read as a number was written as one. -/
theorem exists_of_splitNumber (cs : List Char) : ∃ fraction : Option (List Char),
    (splitNumber cs).2.1 = fraction.getD [] ∧
    cs = (splitNumber cs).1 ++ fraction.elim [] ('.' :: ·) ++ (splitNumber cs).2.2 ∧
    (∀ c ∈ (splitNumber cs).1, isDigit c) ∧ ∀ c ∈ fraction.getD [], isDigit c := by
  have hsplit := List.takeWhile_append_dropWhile (p := isDigit) (l := cs)
  have hdigits : ∀ c ∈ cs.takeWhile isDigit, isDigit c := fun c hc => List.mem_takeWhile_imp hc
  rw [splitNumber]
  split
  · next rest h =>
    refine ⟨some (rest.takeWhile isDigit), rfl, ?_, hdigits, fun c hc => List.mem_takeWhile_imp hc⟩
    rw [h] at hsplit
    simp [List.takeWhile_append_dropWhile, hsplit]
  · refine ⟨none, rfl, ?_, hdigits, by simp⟩
    simp [List.takeWhile_append_dropWhile]

theorem readNat_eq_ok_iff {digits : List Char} {n : ℕ} :
    (Decimal.readNat digits).mapError ParseError.tooManyDigits = .ok n ↔
      digits.length ≤ maxDigits ∧ value digits = n := by
  unfold Decimal.readNat
  split
  · next h => simp [Except.mapError, h]
  · next h => simp [Except.mapError, h]

theorem scanGroup_text (text : String) (t : Term) (hread : t.Readable) {rest : List Char}
    (hrest : ∀ c ∈ rest.head?, isUnitChar c = false) :
    scanGroup text (t.text ++ rest) = .ok (t.group, rest) := by
  have hname := Unit.isUnitChar_of_mem_names t.name_mem
  have hdigit : (t.whole.isEmpty && t.decimals.isEmpty) = false := by
    rw [Bool.and_eq_false_iff, List.isEmpty_eq_false_iff, List.isEmpty_eq_false_iff]
    exact t.has_digit
  rw [scanGroup, splitNumber_text]
  dsimp only
  rw [takeWhile_append_of_stop hname hrest, dropWhile_append_of_stop hname hrest, hdigit,
    List.isEmpty_eq_false_iff.2 (Unit.ne_nil_of_mem_names t.name_mem),
    Unit.ofName?_of_mem_names _ _ t.name_mem, readNat_eq_ok_iff.2 ⟨hread.1, rfl⟩,
    readNat_eq_ok_iff.2 ⟨hread.2, rfl⟩]
  rfl

theorem exists_of_scanGroup {text : String} {cs rest : List Char} {g : Group}
    (h : scanGroup text cs = .ok (g, rest)) :
    ∃ t : Term, t.Readable ∧ cs = t.text ++ rest ∧ t.group = g := by
  obtain ⟨fraction, hfraction, hcs, hdigits, hdecimals⟩ := exists_of_splitNumber cs
  rw [scanGroup] at h
  dsimp only at h
  rw [hfraction] at h
  generalize splitNumber cs = split at hcs hdigits h
  obtain ⟨whole, decimals, tail⟩ := split
  dsimp only at hcs hdigits h
  split_ifs at h with hnone hname hname
  · cases h
  · cases h
  · cases h
  · split at h
    · cases h
    · next unit hunit =>
      obtain ⟨_, hwhole, h⟩ := except_bind_eq_ok_iff.1 h
      obtain ⟨_, hpart, h⟩ := except_bind_eq_ok_iff.1 h
      obtain ⟨hread, rfl⟩ := readNat_eq_ok_iff.1 hwhole
      obtain ⟨hread', rfl⟩ := readNat_eq_ok_iff.1 hpart
      cases h
      have hdigit : whole ≠ [] ∨ fraction.getD [] ≠ [] := by
        simpa [Bool.and_eq_true, or_iff_not_imp_left] using hnone
      refine ⟨⟨whole, fraction, unit, _, hdigits, hdecimals, hdigit,
        Unit.mem_names_of_ofName? hunit⟩, ⟨hread, hread'⟩, ?_, rfl⟩
      rw [hcs, Term.text, List.append_assoc _ _ (tail.dropWhile _), List.takeWhile_append_dropWhile]

/-- A term starts with a digit or with a point, where no unit goes on. -/
theorem exists_text_cons (t : Term) : ∃ c cs, t.text = c :: cs ∧ isUnitChar c = false := by
  have hdigit {c : Char} (hc : isDigit c) : isUnitChar c = false := by simp [isUnitChar, hc]
  rw [Term.text]
  cases hwhole : t.whole with
  | cons c cs => exact ⟨c, _, rfl, hdigit (t.whole_digits c (hwhole ▸ List.mem_cons_self))⟩
  | nil =>
      cases hfraction : t.fraction with
      | some ds => exact ⟨'.', _, rfl, rfl⟩
      | none => simpa [hwhole, hfraction] using t.has_digit

theorem isUnitChar_head?_flatMap (terms : List Term) :
    ∀ c ∈ (terms.flatMap Term.text).head?, isUnitChar c = false := by
  cases terms with
  | nil => simp
  | cons t terms =>
      obtain ⟨c, cs, htext, hc⟩ := exists_text_cons t
      rw [List.flatMap_cons, htext]
      rintro _ ⟨⟩
      exact hc

theorem sumGroups_succ_eq_ok_iff {text : String} {negative : Bool} {fuel total n : ℕ}
    {cs : List Char} (hne : cs ≠ []) : sumGroups text negative (fuel + 1) total cs = .ok n ↔
      ∃ group rest, scanGroup text cs = .ok (group, rest) ∧
        total + group.nanoseconds ≤ limit negative ∧
        sumGroups text negative fuel (total + group.nanoseconds) rest = .ok n := by
  rw [sumGroups]
  · rw [except_bind_eq_ok_iff]
    constructor
    · rintro ⟨⟨group, rest⟩, hscan, h⟩
      dsimp only at h
      split_ifs at h with hmore
      · cases h
      · exact ⟨group, rest, hscan, Nat.le_of_not_lt hmore, h⟩
    · rintro ⟨group, rest, hscan, hlimit, h⟩
      refine ⟨(group, rest), hscan, ?_⟩
      dsimp only
      rw [if_neg (Nat.not_lt_of_le hlimit)]
      exact h
  · exact hne

/-- The sum stays within the limit after every term, as it only grows. -/
theorem sumGroups_terms (text : String) (negative : Bool) {terms : List Term}
    (hread : ∀ t ∈ terms, t.Readable) {fuel total : ℕ} (hfuel : terms.length ≤ fuel)
    (hlimit : total + (terms.map Term.nanoseconds).sum ≤ limit negative) :
    sumGroups text negative fuel total (terms.flatMap Term.text) =
      .ok (total + (terms.map Term.nanoseconds).sum) := by
  induction terms generalizing fuel total with
  | nil => cases fuel <;> rfl
  | cons t terms ih =>
      obtain ⟨ht, hterms⟩ := List.forall_mem_cons.1 hread
      obtain ⟨c, cs, htext, -⟩ := exists_text_cons t
      obtain ⟨fuel, rfl⟩ := Nat.exists_eq_add_of_le' (Nat.one_le_of_lt hfuel)
      have hne : t.text ++ terms.flatMap Term.text ≠ [] := by simp [htext]
      rw [List.map_cons, List.sum_cons, ← add_assoc, ← t.nanoseconds_group] at hlimit ⊢
      rw [List.flatMap_cons, sumGroups_succ_eq_ok_iff hne]
      exact ⟨t.group, _, scanGroup_text text t ht (isUnitChar_head?_flatMap terms), by omega,
        ih hterms (Nat.le_of_succ_le_succ hfuel) hlimit⟩

theorem exists_of_sumGroups {text : String} {negative : Bool} {fuel total n : ℕ} {cs : List Char}
    (h : sumGroups text negative fuel total cs = .ok n) :
    ∃ terms : List Term, (∀ t ∈ terms, t.Readable) ∧ cs = terms.flatMap Term.text ∧
      n = total + (terms.map Term.nanoseconds).sum ∧ (terms ≠ [] → n ≤ limit negative) := by
  induction fuel generalizing total cs with
  | zero =>
      cases cs with
      | nil =>
          cases h
          exact ⟨[], by simp⟩
      | cons c cs => cases h
  | succ fuel ih =>
      by_cases hne : cs = []
      · subst hne
        cases h
        exact ⟨[], by simp⟩
      · obtain ⟨group, rest, hscan, hlimit, h⟩ := (sumGroups_succ_eq_ok_iff hne).1 h
        obtain ⟨t, ht, rfl, rfl⟩ := exists_of_scanGroup hscan
        obtain ⟨terms, hterms, rfl, rfl, hall⟩ := ih h
        rw [t.nanoseconds_group] at hlimit hall ⊢
        refine ⟨t :: terms, List.forall_mem_cons.2 ⟨ht, hterms⟩, rfl, ?_, fun _ => ?_⟩
        · rw [List.map_cons, List.sum_cons, add_assoc]
        · by_cases hlast : terms = []
          · subst hlast
            simpa using hlimit
          · exact hall hlast

def Sign.isMinus : Sign → Bool
  | .minus => true
  | _ => false

theorem splitSign_append (sign : Sign) {cs : List Char} (h : ∀ c ∈ cs.head?, c ≠ '+' ∧ c ≠ '-') :
    Decimal.splitSign (sign.text ++ cs) = (sign.isMinus, cs) := by
  cases sign with
  | absent =>
      cases cs with
      | nil => rfl
      | cons c cs =>
          obtain ⟨hplus, hminus⟩ := h c rfl
          simp [Sign.text, Sign.isMinus, Decimal.splitSign, hplus, hminus]
  | plus => rfl
  | minus => rfl

theorem exists_of_splitSign (cs : List Char) : ∃ (sign : Sign) (body : List Char),
    Decimal.splitSign cs = (sign.isMinus, body) ∧ cs = sign.text ++ body := by
  unfold Decimal.splitSign
  split
  · exact ⟨.minus, _, rfl, rfl⟩
  · exact ⟨.plus, _, rfl, rfl⟩
  · exact ⟨.absent, _, rfl, rfl⟩

theorem Sign.signed_eq (sign : Sign) (n : ℕ) : Decimal.signed sign.isMinus n = sign.apply n := by
  cases sign <;> rfl

theorem Sign.limit_eq (sign : Sign) : limit sign.isMinus = sign.most := by
  cases sign <;> rfl

theorem length_le_flatMap (terms : List Term) :
    terms.length ≤ (terms.flatMap Term.text).length := by
  induction terms with
  | nil => rfl
  | cons t terms ih =>
      obtain ⟨c, cs, htext, -⟩ := exists_text_cons t
      rw [List.flatMap_cons, htext, List.length_append, List.length_cons, List.length_cons]
      omega

/-- A term ends in a unit, so it is no bare number. -/
theorem flatMap_ne_zero (terms : List Term) : terms.flatMap Term.text ≠ ['0'] := by
  intro h
  cases terms with
  | nil => cases h
  | cons t terms =>
      obtain ⟨c, hc⟩ := List.exists_mem_of_ne_nil _ (Unit.ne_nil_of_mem_names t.name_mem)
      have hmem : c ∈ (t :: terms).flatMap Term.text := by simp [Term.text, hc]
      rw [h, List.mem_singleton] at hmem
      subst hmem
      exact absurd (Unit.isUnitChar_of_mem_names t.name_mem _ hc) (by decide)

theorem parse_of_spells {text : String} {n : ℤ} (h : Spells text n) : parse text = .ok n := by
  cases h with
  | zero sign h =>
      rw [parse, h, splitSign_append sign (by simp)]
      rfl
  | terms sign terms hne hread h hmost =>
      have hunit := isUnitChar_head?_flatMap terms
      have hhead : ∀ c ∈ (terms.flatMap Term.text).head?, c ≠ '+' ∧ c ≠ '-' := by
        refine fun c hc => ⟨?_, ?_⟩
        · rintro rfl
          exact absurd (hunit _ hc) (by decide)
        · rintro rfl
          exact absurd (hunit _ hc) (by decide)
      have hsome : (terms.flatMap Term.text).isEmpty = false := by
        rw [List.isEmpty_eq_false_iff, ← List.length_pos_iff]
        exact Nat.lt_of_lt_of_le (List.length_pos_iff.2 hne) (length_le_flatMap terms)
      have hlimit : 0 + (terms.map Term.nanoseconds).sum ≤ limit sign.isMinus := by
        rwa [sign.limit_eq, zero_add]
      have hsum := sumGroups_terms text sign.isMinus hread (length_le_flatMap terms) hlimit
      rw [parse, h, splitSign_append sign hhead]
      dsimp only
      rw [if_neg (flatMap_ne_zero terms), hsome, hsum, zero_add, ← sign.signed_eq]
      rfl

theorem spells_of_parse {text : String} {n : ℤ} (h : parse text = .ok n) : Spells text n := by
  obtain ⟨sign, body, hsplit, htext⟩ := exists_of_splitSign text.toList
  rw [parse, hsplit] at h
  dsimp only at h
  split_ifs at h with hzero hempty
  · cases h
    exact .zero sign (hzero ▸ htext)
  · cases h
  · obtain ⟨total, hsum, h⟩ := except_bind_eq_ok_iff.1 h
    cases h
    obtain ⟨terms, hread, rfl, rfl, hlimit⟩ := exists_of_sumGroups hsum
    have hne : terms ≠ [] := by
      rintro rfl
      exact hempty rfl
    rw [zero_add] at hlimit ⊢
    rw [sign.signed_eq]
    exact .terms sign terms hne hread htext (sign.limit_eq ▸ hlimit hne)

theorem Spells.bounds {text : String} {n : ℤ} (h : Spells text n) :
    -2 ^ 63 ≤ n ∧ n ≤ 2 ^ 63 - 1 := by
  cases h with
  | zero => norm_num
  | terms sign terms hne hread h hmost =>
      generalize (terms.map Term.nanoseconds).sum = total at hmost ⊢
      cases sign <;> simp only [Sign.most, Sign.apply] at hmost ⊢ <;> omega

/-- A text is read exactly if it spells a duration, and then as what it spells; all others are
errors. Durations fit into 64 bits. -/
theorem parse_eq_ok_iff_spells (text : String) :
    (∀ n, parse text = .ok n ↔ Spells text n) ∧
      ((∃ e, parse text = .error e) ↔ ∀ n, ¬ Spells text n) ∧
      ∀ n, Spells text n → -2 ^ 63 ≤ n ∧ n ≤ 2 ^ 63 - 1 := by
  refine ⟨fun n => ⟨spells_of_parse, parse_of_spells⟩, ⟨?_, fun h => ?_⟩, fun n => Spells.bounds⟩
  · rintro ⟨e, he⟩ n hn
    rw [parse_of_spells hn] at he
    cases he
  · cases hparse : parse text with
    | error e => exact ⟨e, rfl⟩
    | ok n => exact absurd (spells_of_parse hparse) (h n)

end TypedConfig.Duration
