import TypedConfig.Binary64.Reading
import TypedConfig.Go.Literal
import TypedConfig.Proofs.Binary64.Nearest
import TypedConfig.Proofs.Duration.Grammar
import TypedConfig.Proofs.Go.Constant

namespace TypedConfig.Go

open Binary64 (splitDigits significantDigits positional scientific padLeft plainLayout)
open Decimal (isDigit numeral value)

def decimal (negative : Bool) (digits : List Char) (exponent : Int) : ℚ :=
  Binary64.Decimal.rational negative ⟨value digits, exponent⟩

structure Number where
  negative : Bool
  whole : List Char
  fraction : Option (List Char)
  power : Option (Bool × List Char)
  whole_digits : ∀ c ∈ whole, isDigit c
  whole_ne_nil : whole ≠ []
  fraction_digits : ∀ c ∈ fraction.getD [], isDigit c
  power_digits : ∀ p ∈ power, p.2 ≠ [] ∧ ∀ c ∈ p.2, isDigit c
  canonical : fraction = none → power = none → numeral (value whole) = whole

namespace Number

def fractionText (fraction : Option (List Char)) : List Char :=
  fraction.elim [] ('.' :: ·)

def powerText (power : Option (Bool × List Char)) : List Char :=
  power.elim [] fun (negative, digits) => 'e' :: (if negative then '-' else '+') :: digits

def text (n : Number) : List Char :=
  (if n.negative then ['-'] else []) ++ (n.whole ++ (fractionText n.fraction ++ powerText n.power))

def exponent (fraction : Option (List Char)) (power : Option (Bool × List Char)) : Int :=
  power.elim 0 (fun (negative, digits) => Decimal.signed negative (value digits)) -
    (fraction.getD []).length

def value (n : Number) : ℚ :=
  decimal n.negative (n.whole ++ n.fraction.getD []) (exponent n.fraction n.power)

end Number

def splitMinus : List Char → Bool × List Char
  | '-' :: rest => (true, rest)
  | cs => (false, cs)

def splitFraction : List Char → Option (List Char) × List Char
  | '.' :: rest => ((splitDigits rest).map some id)
  | cs => (none, cs)

def readPower : List Char → Option (Option (Bool × List Char) × List Char)
  | [] => some (none, [])
  | c :: rest =>
    if c = 'e' ∨ c = 'E' then
      let (negative, rest) := Decimal.splitSign rest
      let (digits, rest) := splitDigits rest
      if digits.isEmpty then none else some (some (negative, digits), rest)
    else some (none, c :: rest)

def readNumber (cs : List Char) : Option (ℚ × List Char) := do
  let (negative, rest) := splitMinus cs
  let (whole, rest) := splitDigits rest
  let (fraction, rest) := splitFraction rest
  let (power, rest) ← readPower rest
  if whole.isEmpty then none
  else if fraction.isNone && power.isNone && numeral (value whole) != whole then none
  else
    return (decimal negative (whole ++ fraction.getD []) (Number.exponent fraction power), rest)

def EndsNumber (rest : List Char) : Prop :=
  ∀ c ∈ rest.head?, isDigit c = false ∧ c ≠ '.' ∧ c ≠ 'e' ∧ c ≠ 'E'

section Reading

variable {digits rest : List Char}

theorem splitDigits_append (hdigits : ∀ c ∈ digits, isDigit c)
    (hrest : ∀ c ∈ rest.head?, isDigit c = false) :
    splitDigits (digits ++ rest) = (digits, rest) := by
  rw [splitDigits, Text.takeWhile_append_of_stop hdigits hrest,
    Text.dropWhile_append_of_stop hdigits hrest]

theorem readPower_text (n : Number) (hrest : EndsNumber rest) :
    readPower (Number.powerText n.power ++ rest) = some (n.power, rest) := by
  have hstop : ∀ c ∈ rest.head?, isDigit c = false := fun c hc => (hrest c hc).1
  have hpower := n.power_digits
  cases hcase : n.power with
  | none =>
      cases rest with
      | nil => rfl
      | cons c rest =>
          obtain ⟨-, -, he, hE⟩ := hrest c rfl
          exact if_neg (not_or.2 ⟨he, hE⟩)
  | some p =>
      obtain ⟨negative, digits⟩ := p
      obtain ⟨hne, hdigits⟩ := hpower _ hcase
      have hsign : Decimal.splitSign ((if negative then '-' else '+') :: (digits ++ rest)) =
          (negative, digits ++ rest) := by
        cases negative <;> rfl
      change readPower ('e' :: (if negative then '-' else '+') :: (digits ++ rest)) = _
      rw [readPower, if_pos (.inl rfl), hsign]
      dsimp only
      rw [splitDigits_append hdigits hstop]
      simpa using hne

theorem head?_powerText (n : Number) (hrest : EndsNumber rest) :
    ∀ c ∈ (Number.powerText n.power ++ rest).head?, isDigit c = false ∧ c ≠ '.' := by
  cases n.power with
  | none => exact fun c hc => ⟨(hrest c hc).1, (hrest c hc).2.1⟩
  | some p =>
      rintro _ ⟨⟩
      decide

theorem splitFraction_text (n : Number) (hrest : EndsNumber rest) :
    splitFraction (Number.fractionText n.fraction ++ (Number.powerText n.power ++ rest)) =
      (n.fraction, Number.powerText n.power ++ rest) := by
  have hstop := head?_powerText n hrest
  have hdigits := n.fraction_digits
  cases hcase : n.fraction with
  | none =>
      generalize Number.powerText n.power ++ rest = following at hstop
      change splitFraction following = _
      unfold splitFraction
      split
      · exact absurd rfl (hstop '.' rfl).2
      · rfl
  | some digits =>
      rw [hcase, Option.getD_some] at hdigits
      change (splitDigits (digits ++ _)).map some id = _
      rw [splitDigits_append hdigits fun c hc => (hstop c hc).1]
      rfl

theorem head?_fractionText (n : Number) (hrest : EndsNumber rest) :
    ∀ c ∈ (Number.fractionText n.fraction ++ (Number.powerText n.power ++ rest)).head?,
      isDigit c = false := by
  cases n.fraction with
  | none => exact fun c hc => (head?_powerText n hrest c hc).1
  | some digits =>
      rintro _ ⟨⟩
      decide

theorem splitMinus_text (n : Number) (rest : List Char) :
    splitMinus ((if n.negative then ['-'] else []) ++ (n.whole ++ rest)) =
      (n.negative, n.whole ++ rest) := by
  cases n.negative with
  | true => rfl
  | false =>
      obtain ⟨c, cs, hwhole⟩ := List.exists_cons_of_ne_nil n.whole_ne_nil
      have hdigit := n.whole_digits c (hwhole ▸ List.mem_cons_self)
      have hminus : c ≠ '-' := by
        rintro rfl
        exact absurd hdigit (by decide)
      rw [hwhole]
      unfold splitMinus
      split
      · next h =>
        cases h
        exact absurd rfl hminus
      · rfl

/-- A number is read from its text, whatever follows that is no part of it. -/
theorem readNumber_text (n : Number) (hrest : EndsNumber rest) :
    readNumber (n.text ++ rest) = some (n.value, rest) := by
  have hcanonical : (n.fraction.isNone && n.power.isNone && numeral (value n.whole) != n.whole) =
      false := by
    rw [Bool.and_eq_false_imp]
    intro hplain
    obtain ⟨hfraction, hpower⟩ := Bool.and_eq_true_iff.1 hplain
    simpa using n.canonical (Option.isNone_iff_eq_none.1 hfraction)
      (Option.isNone_iff_eq_none.1 hpower)
  rw [Number.text, List.append_assoc, List.append_assoc, List.append_assoc, readNumber,
    splitMinus_text]
  dsimp only
  rw [splitDigits_append n.whole_digits (head?_fractionText n hrest)]
  dsimp only
  rw [splitFraction_text n hrest]
  dsimp only
  rw [readPower_text n hrest]
  simp only [Option.bind_eq_bind, Option.bind_some, hcanonical]
  simp [n.whole_ne_nil, Number.value]

end Reading

theorem isDigit_of_mem_numeral {n : Nat} : ∀ c ∈ numeral n, isDigit c := by
  intro c hc
  have h : c.isDigit := Nat.isDigit_of_mem_toDigits (by decide) (by decide) hc
  simpa [isDigit, Char.isDigit, Char.le_def] using h

def integer (n : Int) : Number where
  negative := decide (n < 0)
  whole := numeral n.natAbs
  fraction := none
  power := none
  whole_digits := isDigit_of_mem_numeral
  whole_ne_nil := Nat.toDigits_ne_nil
  fraction_digits := nofun
  power_digits := nofun
  canonical _ _ := by rw [value_numeral]

theorem text_integer (n : Int) : (integer n).text = (toString n).toList := by
  have htext : (integer n).text = (if n < 0 then ['-'] else []) ++ numeral n.natAbs := by
    rw [Number.text, integer]
    simp [Number.fractionText, Number.powerText]
  rw [htext, Int.toString_eq_repr, Int.repr_eq_if]
  split
  · next hneg =>
    have habs : (-n).toNat = n.natAbs := by omega
    rw [if_neg (by omega), String.toList_append, Nat.toList_repr, habs]
    rfl
  · next hneg =>
    have habs : n.toNat = n.natAbs := by omega
    rw [if_pos (by omega), Nat.toList_repr, habs]
    rfl

theorem value_integer (n : Int) : (integer n).value = n := by
  have hvalue : (integer n).value = (if n < 0 then -1 else 1) * (n.natAbs : ℚ) := by
    simp [Number.value, integer, decimal, Binary64.Decimal.rational, Number.exponent,
      value_numeral]
  rw [hvalue, Nat.cast_natAbs]
  split
  · next hneg =>
    rw [abs_of_neg hneg]
    push_cast
    ring
  · next hneg => rw [abs_of_nonneg (not_lt.1 hneg), one_mul]

theorem numeral_mul_ten {n : Nat} (hn : 0 < n) : numeral (10 * n) = numeral n ++ ['0'] :=
  (Nat.toDigits_append_toDigits (by decide) hn (by decide : 0 < 10)).symm

theorem numeral_mul_pow {n : Nat} (hn : 0 < n) (k : Nat) :
    numeral (n * 10 ^ k) = numeral n ++ List.replicate k '0' := by
  induction k with
  | zero => simp
  | succ k ih =>
      rw [Nat.pow_succ, ← Nat.mul_assoc, Nat.mul_comm, numeral_mul_ten (by positivity), ih,
        List.append_assoc, ← List.replicate_succ']

theorem exists_front (n : Nat) : ∃ front, numeral n = front ++ [(n % 10).digitChar] := by
  rw [numeral, Nat.toDigits_eq_if (by decide)]
  split
  · next h => exact ⟨[], by rw [Nat.mod_eq_of_lt h, List.nil_append]⟩
  · exact ⟨_, rfl⟩

theorem digitChar_mod_ten_ne_zero {n : Nat} (h : n % 10 ≠ 0) : (n % 10).digitChar ≠ '0' := by
  have hall : ∀ digit < 10, digit ≠ 0 → digit.digitChar ≠ '0' := by decide
  exact hall _ (Nat.mod_lt n (by decide)) h

/-- The zeros at the end are dropped, and what they stood for is a power of ten. -/
theorem exists_significant (c : Nat) : ∃ m k, c = m * 10 ^ k ∧ significantDigits c = numeral m ∧
    (numeral c).length = (numeral m).length + k ∧ (c ≠ 0 → m % 10 ≠ 0) := by
  induction c using Nat.strong_induction_on with
  | _ c ih =>
      by_cases hzero : c = 0
      · subst hzero
        exact ⟨0, 0, rfl, rfl, rfl, nofun⟩
      by_cases hlast : c % 10 = 0
      · obtain ⟨c, rfl⟩ := Nat.dvd_of_mod_eq_zero hlast
        have hc : 0 < c := by omega
        obtain ⟨m, k, hvalue, hdigits, hlength, hm⟩ := ih c (by omega)
        refine ⟨m, k + 1, ?_, ?_, ?_, fun _ => hm hc.ne'⟩
        · rw [hvalue]
          ring
        · rw [← hdigits, significantDigits, numeral_mul_ten hc, List.reverse_append]
          rfl
        · rw [numeral_mul_ten hc, List.length_append, hlength]
          rfl
      · refine ⟨c, 0, (Nat.mul_one c).symm, ?_, rfl, fun _ => hlast⟩
        obtain ⟨front, hfront⟩ := exists_front c
        have hkept : (numeral c).reverse.dropWhile (· == '0') = (numeral c).reverse := by
          rw [hfront, List.reverse_concat]
          exact List.dropWhile_cons_of_neg (by simpa using digitChar_mod_ten_ne_zero hlast)
        rw [significantDigits, hkept, List.reverse_reverse, hfront]
        cases front <;> rfl

theorem value_replicate_append (k : Nat) (digits : List Char) :
    value (List.replicate k '0' ++ digits) = value digits := by
  have hzeros : value (List.replicate k '0') = 0 := Nat.ofDigitChars_replicate_zero
  rw [value, List.foldl_append, ← value, hzeros]
  rfl

theorem value_append_replicate (digits : List Char) (k : Nat) :
    value (digits ++ List.replicate k '0') = value digits * 10 ^ k := by
  rw [value, List.foldl_append, ← value, Nat.mul_comm]
  exact Nat.ofDigitChars_replicate_zero

theorem finiteText_point_zero (cs : List Char) : (finiteText (cs ++ ['.', '0'])).toList = cs := by
  have hsuffix : ['.', '0'].isSuffixOf (cs ++ ['.', '0']) = true :=
    List.isSuffixOf_iff_suffix.2 (List.suffix_append _ _)
  rw [finiteText, if_pos hsuffix, String.toList_ofList]
  simp

theorem finiteText_of_not_suffix {cs : List Char} (h : ¬ ['.', '0'] <:+ cs) :
    (finiteText cs).toList = cs := by
  rw [finiteText, if_neg (mt List.isSuffixOf_iff_suffix.1 h), String.toList_ofList]

theorem not_suffix_of_last {c : Char} (hc : c ≠ '0') (cs : List Char) :
    ¬ ['.', '0'] <:+ cs ++ [c] := by
  rintro ⟨front, hfront⟩
  have hlast := congrArg List.getLast? hfront
  rw [List.getLast?_concat] at hlast
  simp [hc.symm] at hlast

theorem not_suffix_of_digits {digits : List Char} (hdigits : ∀ c ∈ digits, isDigit c)
    (hlength : 2 ≤ digits.length) (cs : List Char) : ¬ ['.', '0'] <:+ cs ++ digits := by
  intro h
  have hshort := List.suffix_of_suffix_length_le h (List.suffix_append cs digits) hlength
  exact absurd (hdigits '.' (hshort.subset List.mem_cons_self)) (by decide)

theorem rational_mul_pow (negative : Bool) (m k : Nat) (e : Int) :
    Binary64.Decimal.rational negative ⟨m * 10 ^ k, e⟩ =
      Binary64.Decimal.rational negative ⟨m, e + k⟩ := by
  rw [Binary64.Decimal.rational, Binary64.Decimal.rational, zpow_add₀ (by norm_num)]
  push_cast
  rw [zpow_natCast]
  ring

theorem decimal_append_replicate (negative : Bool) (digits : List Char) (k : Nat) (e : Int) :
    decimal negative (digits ++ List.replicate k '0') e = decimal negative digits (e + k) := by
  rw [decimal, value_append_replicate, rational_mul_pow]
  rfl

section Layouts

variable (negative : Bool) (m : Nat)

def below (zeros : Nat) : Number where
  negative := negative
  whole := ['0']
  fraction := some (List.replicate zeros '0' ++ numeral m)
  power := none
  whole_digits := List.forall_mem_singleton.2 rfl
  whole_ne_nil := nofun
  fraction_digits := by
    intro c hc
    obtain hc | hc := List.mem_append.1 hc
    · rw [List.eq_of_mem_replicate hc]
      rfl
    · exact isDigit_of_mem_numeral c hc
  power_digits := nofun
  canonical := nofun

theorem value_below (zeros : Nat) : (below negative m zeros).value =
    decimal negative (numeral m) (-(zeros + (numeral m).length : Int)) := by
  have hdigits : value (['0'] ++ (List.replicate zeros '0' ++ numeral m)) = value (numeral m) := by
    rw [← List.append_assoc]
    exact value_replicate_append (zeros + 1) (numeral m)
  have hexponent : Number.exponent (below negative m zeros).fraction none =
      -(zeros + (numeral m).length : Int) := by
    simp [Number.exponent, below]
  rw [Number.value, decimal, decimal, ← hdigits, ← hexponent]
  rfl

def wholeNumber (zeros : Nat) (h : m = 0 → zeros = 0) : Number where
  negative := negative
  whole := numeral m ++ List.replicate zeros '0'
  fraction := none
  power := none
  whole_digits := by
    intro c hc
    obtain hc | hc := List.mem_append.1 hc
    · exact isDigit_of_mem_numeral c hc
    · rw [List.eq_of_mem_replicate hc]
      rfl
  whole_ne_nil := List.append_ne_nil_of_left_ne_nil Nat.toDigits_ne_nil _
  fraction_digits := nofun
  power_digits := nofun
  canonical _ _ := by
    rw [value_append_replicate, value_numeral]
    obtain rfl | hm := m.eq_zero_or_pos
    · rw [h rfl]
      rfl
    · exact numeral_mul_pow hm zeros

theorem value_wholeNumber (zeros : Nat) (h : m = 0 → zeros = 0) :
    (wholeNumber negative m zeros h).value = decimal negative (numeral m) zeros := by
  rw [Number.value]
  dsimp only [wholeNumber, Option.getD_none]
  rw [List.append_nil, decimal_append_replicate]
  simp [Number.exponent]

def mixed (places : Nat) (h : 0 < places) : Number where
  negative := negative
  whole := (numeral m).take places
  fraction := some ((numeral m).drop places)
  power := none
  whole_digits c hc := isDigit_of_mem_numeral c (List.mem_of_mem_take hc)
  whole_ne_nil := by
    have hne : numeral m ≠ [] := Nat.toDigits_ne_nil
    simpa [List.take_eq_nil_iff, h.ne'] using hne
  fraction_digits c hc := isDigit_of_mem_numeral c (List.mem_of_mem_drop hc)
  power_digits := nofun
  canonical := nofun

theorem value_mixed (places : Nat) (h : 0 < places) (hlength : places ≤ (numeral m).length) :
    (mixed negative m places h).value =
      decimal negative (numeral m) (places - (numeral m).length) := by
  have hexponent : Number.exponent (mixed negative m places h).fraction none =
      places - (numeral m).length := by
    simp [Number.exponent, mixed]
    omega
  rw [Number.value, ← hexponent]
  dsimp only [mixed, Option.getD_some]
  rw [List.take_append_drop]

def scaled (e : Int) : Number where
  negative := negative
  whole := (numeral m).take 1
  fraction := if (numeral m).length = 1 then none else some ((numeral m).drop 1)
  power := some (decide (e < 0), padLeft 2 (numeral e.natAbs))
  whole_digits c hc := isDigit_of_mem_numeral c (List.mem_of_mem_take hc)
  whole_ne_nil := by
    have hne : numeral m ≠ [] := Nat.toDigits_ne_nil
    simpa [List.take_eq_nil_iff] using hne
  fraction_digits := by
    intro c hc
    split at hc
    · cases hc
    · exact isDigit_of_mem_numeral c (List.mem_of_mem_drop hc)
  power_digits := by
    rintro _ ⟨⟩
    refine ⟨List.append_ne_nil_of_right_ne_nil _ Nat.toDigits_ne_nil, fun c hc => ?_⟩
    obtain hc | hc := List.mem_append.1 hc
    · rw [List.eq_of_mem_replicate hc]
      rfl
    · exact isDigit_of_mem_numeral c hc
  canonical _ := nofun

theorem value_scaled (e : Int) : (scaled negative m e).value =
    decimal negative (numeral m) (e + 1 - (numeral m).length) := by
  have hpos : 0 < (numeral m).length := Nat.length_toDigits_pos
  have hfraction : (scaled negative m e).fraction.getD [] = (numeral m).drop 1 := by
    dsimp only [scaled]
    split
    · next hone => exact (List.drop_eq_nil_of_le hone.le).symm
    · rfl
  have hpower : Decimal.signed (decide (e < 0)) (value (padLeft 2 (numeral e.natAbs))) = e := by
    rw [padLeft, value_replicate_append, value_numeral, Decimal.signed]
    simp only [decide_eq_true_eq]
    split <;> omega
  have hexponent : Number.exponent (scaled negative m e).fraction (scaled negative m e).power =
      e + 1 - (numeral m).length := by
    rw [Number.exponent, hfraction, List.length_drop]
    dsimp only [scaled, Option.elim]
    rw [hpower]
    omega
  rw [Number.value, hfraction, hexponent]
  dsimp only [scaled]
  rw [List.take_append_drop]

end Layouts

section Texts

variable (negative : Bool) {m : Nat} {e : Int}

def signedText (body : List Char) : List Char :=
  if negative then '-' :: body else body

theorem text_eq (n : Number) : n.text = signedText n.negative
    (n.whole ++ (Number.fractionText n.fraction ++ Number.powerText n.power)) := by
  rw [Number.text, signedText]
  cases n.negative <;> rfl

theorem signedText_append (body rest : List Char) :
    signedText negative (body ++ rest) = signedText negative body ++ rest := by
  cases negative <;> rfl

theorem finiteText_below (he : e < 0) (hm : m % 10 ≠ 0) :
    (finiteText (signedText negative (positional (numeral m) e))).toList =
      (below negative m (-e - 1).toNat).text := by
  have hbody : positional (numeral m) e =
      '0' :: '.' :: List.replicate (-e - 1).toNat '0' ++ numeral m := if_pos he
  have hlast : ¬ ['.', '0'] <:+ signedText negative (positional (numeral m) e) := by
    obtain ⟨front, hfront⟩ := exists_front m
    rw [hbody, hfront, ← List.append_assoc, signedText_append]
    exact not_suffix_of_last (digitChar_mod_ten_ne_zero hm) _
  rw [finiteText_of_not_suffix hlast, text_eq, hbody]
  simp [below, Number.fractionText, Number.powerText]

theorem finiteText_wholeNumber (he : 0 ≤ e) (hlength : (numeral m).length ≤ e.toNat + 1)
    (h : m = 0 → e.toNat + 1 - (numeral m).length = 0) :
    (finiteText (signedText negative (positional (numeral m) e))).toList =
      (wholeNumber negative m (e.toNat + 1 - (numeral m).length) h).text := by
  have hbody : positional (numeral m) e =
      numeral m ++ List.replicate (e.toNat + 1 - (numeral m).length) '0' ++ ['.', '0'] := by
    rw [positional, if_neg (not_lt.2 he)]
    dsimp only
    rw [List.drop_eq_nil_of_le hlength, List.take_of_length_le hlength]
  rw [hbody, signedText_append, finiteText_point_zero, text_eq]
  simp [wholeNumber, Number.fractionText, Number.powerText]

theorem finiteText_mixed (he : 0 ≤ e) (hlength : e.toNat + 1 < (numeral m).length)
    (hm : m % 10 ≠ 0) : (finiteText (signedText negative (positional (numeral m) e))).toList =
      (mixed negative m (e.toNat + 1) e.toNat.succ_pos).text := by
  have hbody : positional (numeral m) e =
      (numeral m).take (e.toNat + 1) ++ '.' :: (numeral m).drop (e.toNat + 1) := by
    have hne : (numeral m).drop (e.toNat + 1) ≠ [] := by
      rw [Ne, List.drop_eq_nil_iff]
      omega
    rw [positional, if_neg (not_lt.2 he)]
    dsimp only
    rw [Nat.sub_eq_zero_of_le hlength.le, List.replicate_zero, List.append_nil]
    split
    · next hnil => exact absurd hnil hne
    · rfl
  have hlast : ¬ ['.', '0'] <:+ signedText negative (positional (numeral m) e) := by
    obtain ⟨front, hfront⟩ := exists_front m
    have hplaces : e.toNat + 1 ≤ front.length := by
      rw [hfront, List.length_append, List.length_singleton] at hlength
      omega
    have hdrop : (numeral m).drop (e.toNat + 1) =
        front.drop (e.toNat + 1) ++ [(m % 10).digitChar] := by
      rw [hfront, List.drop_append_of_le_length hplaces]
    rw [hbody, hdrop, ← List.cons_append, ← List.append_assoc, signedText_append]
    exact not_suffix_of_last (digitChar_mod_ten_ne_zero hm) _
  rw [finiteText_of_not_suffix hlast, text_eq, hbody]
  simp [mixed, Number.fractionText, Number.powerText]

theorem scientific_eq (m : Nat) (e : Int) : scientific 2 (numeral m) e =
    (scaled negative m e).whole ++ (Number.fractionText (scaled negative m e).fraction ++
      Number.powerText (scaled negative m e).power) := by
  have hne : numeral m ≠ [] := Nat.toDigits_ne_nil
  dsimp only [scaled, Number.powerText, Option.elim]
  unfold scientific
  generalize numeral m = digits at hne
  match digits, hne with
  | [digit], _ => simp [Number.fractionText]
  | digit :: next :: more, _ => simp [Number.fractionText]

theorem finiteText_scaled (m : Nat) (e : Int) :
    (finiteText (signedText negative (scientific 2 (numeral m) e))).toList =
      (scaled negative m e).text := by
  have hdigits := ((scaled negative m e).power_digits _ rfl).2
  have hlength : 2 ≤ (padLeft 2 (numeral e.natAbs)).length := by
    rw [padLeft, List.length_append, List.length_replicate]
    omega
  have hpower : Number.powerText (scaled negative m e).power =
      ['e', if decide (e < 0) then '-' else '+'] ++ padLeft 2 (numeral e.natAbs) := rfl
  have hlast : ¬ ['.', '0'] <:+ signedText negative (scientific 2 (numeral m) e) := by
    rw [scientific_eq negative, hpower, ← List.append_assoc, ← List.append_assoc,
      signedText_append]
    exact not_suffix_of_digits hdigits hlength _
  rw [finiteText_of_not_suffix hlast, text_eq, scientific_eq negative]
  rfl

theorem exists_positional (hzero : m = 0 → e = 0) (hlast : m ≠ 0 → m % 10 ≠ 0) : ∃ n : Number,
    n.text = (finiteText (signedText negative (positional (numeral m) e))).toList ∧
      n.value = decimal negative (numeral m) (e + 1 - (numeral m).length) := by
  by_cases hneg : e < 0
  · have hm : m ≠ 0 := fun hm => absurd (hzero hm) hneg.ne
    refine ⟨_, (finiteText_below negative hneg (hlast hm)).symm, ?_⟩
    rw [value_below]
    exact congrArg (decimal negative (numeral m)) (by omega)
  · have hnonneg := not_lt.1 hneg
    by_cases hwhole : (numeral m).length ≤ e.toNat + 1
    · have hzeros : m = 0 → e.toNat + 1 - (numeral m).length = 0 := by
        rintro rfl
        rw [hzero rfl]
        rfl
      refine ⟨_, (finiteText_wholeNumber negative hnonneg hwhole hzeros).symm, ?_⟩
      rw [value_wholeNumber]
      exact congrArg (decimal negative (numeral m)) (by omega)
    · have hlong := not_le.1 hwhole
      have hm : m ≠ 0 := by
        rintro rfl
        rw [hzero rfl] at hlong
        exact absurd hlong (by decide)
      refine ⟨_, (finiteText_mixed negative hnonneg hlong (hlast hm)).symm, ?_⟩
      rw [value_mixed _ _ _ _ hlong.le]
      exact congrArg (decimal negative (numeral m)) (by omega)

end Texts

open Binary64 (Finite)

/-- The text of a floating-point number is a decimal number, and it is the shortest decimal. -/
theorem exists_number (x : Finite) : ∃ n : Number,
    n.text = (floatText (.finite x)).toList ∧ n.value = x.decimal := by
  obtain ⟨m, k, hm, hdigits, hlength, hlast⟩ := exists_significant x.written.coefficient
  have hzero : x.written.coefficient = 0 → x.written.exponent = 0 := by
    intro hcoefficient
    by_cases hx : x.significand = 0
    · rw [Finite.written, if_pos hx]
    · exact absurd hcoefficient (Binary64.written_coefficient_ne_zero hx)
  have hvalue : x.decimal = decimal x.negative (numeral m) (x.written.exponent + k) := by
    rw [Finite.decimal, decimal, value_numeral, ← rational_mul_pow, ← hm]
  set e := x.written.exponent + (numeral x.written.coefficient).length - 1 with he
  have htext : (floatText (.finite x)).toList = (finiteText (signedText x.negative
      (if plainLayout.low ≤ e && e ≤ plainLayout.high then positional (numeral m) e
        else scientific plainLayout.exponentDigits (numeral m) e))).toList := by
    rw [← hdigits, floatText, Binary64.text, String.toList_ofList]
    rfl
  have hexponent : x.written.exponent + k = e + 1 - (numeral m).length := by
    rw [he, hlength]
    push_cast
    ring
  have hmzero : m = 0 → e = 0 := by
    intro hm0
    rw [hm0, Nat.zero_mul] at hm
    rw [he, hm, hzero hm]
    rfl
  have hmlast : m ≠ 0 → m % 10 ≠ 0 := fun hm0 => hlast (hm ▸ Nat.mul_ne_zero hm0 (by positivity))
  rw [htext, hvalue, hexponent]
  split
  · exact exists_positional x.negative hmzero hmlast
  · exact ⟨_, (finiteText_scaled x.negative m e).symm, value_scaled x.negative m e⟩

end TypedConfig.Go
