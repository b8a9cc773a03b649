import TypedConfig.Binary64.Shortest
import Mathlib.Algebra.Order.Field.Rat
import Mathlib.Data.Nat.Log
import Mathlib.Tactic.FieldSimp
import Mathlib.Tactic.Positivity
import Mathlib.Tactic.Ring

namespace TypedConfig.Binary64

section Quotients

variable {a b c d : Nat} {negative : Bool} {x : Finite}

theorem roundQuotient_mul_left {k : Nat} (hk : 0 < k) (num den : Nat) :
    roundQuotient (k * num) (k * den) = roundQuotient num den := by
  have hcompare (r : Nat) : 2 * (k * r) < k * den ↔ 2 * r < den := by
    rw [Nat.mul_left_comm]
    exact Nat.mul_lt_mul_left hk
  have hcompare' (r : Nat) : k * den < 2 * (k * r) ↔ den < 2 * r := by
    rw [Nat.mul_left_comm]
    exact Nat.mul_lt_mul_left hk
  rw [roundQuotient, roundQuotient, Nat.mul_div_mul_left _ _ hk, Nat.mul_mod_mul_left]
  simp only [hcompare, hcompare']

theorem ofQuotient_mul_left {k : Nat} (hk : 0 < k) (negative : Bool) (num den : Nat) :
    ofQuotient negative (k * num) (k * den) = ofQuotient negative num den := by
  unfold ofQuotient
  dsimp only
  rw [Nat.mul_assoc, Nat.mul_div_mul_left _ _ hk, Nat.shiftLeft_eq, Nat.mul_assoc,
    roundQuotient_mul_left hk, ← Nat.shiftLeft_eq]

/-- Equal quotients are rounded to the same number. -/
theorem ofQuotient_congr (hb : 0 < b) (hd : 0 < d) (h : a * d = c * b) (negative : Bool) :
    ofQuotient negative a b = ofQuotient negative c d := by
  rw [← ofQuotient_mul_left hd, Nat.mul_comm, h, Nat.mul_comm c, Nat.mul_comm d,
    ofQuotient_mul_left hb]

theorem assemble_negative {significand exponent : Nat}
    (h : assemble false significand exponent = .finite x) :
    assemble negative significand exponent = .finite { x with negative } := by
  unfold assemble at h ⊢
  split
  · next hfits =>
    rw [dif_pos hfits] at h
    cases h
    rfl
  · next hfits =>
    rw [dif_neg hfits] at h
    split
    · next hcarry =>
      rw [dif_pos hcarry] at h
      cases h
      rfl
    · next hcarry =>
      rw [dif_neg hcarry] at h
      cases h

theorem ofQuotient_negative (h : ofQuotient false a b = .finite x) :
    ofQuotient negative a b = .finite { x with negative } :=
  assemble_negative h

theorem unitsPerOne_pos : 0 < unitsPerOne := by
  rw [unitsPerOne, Nat.shiftLeft_eq]
  positivity

theorem roundQuotient_one (n : Nat) : roundQuotient n 1 = n := by
  rw [roundQuotient]
  simp [Nat.mod_one]

theorem magnitude_eq (x : Finite) : x.magnitude = x.significand * 2 ^ x.exponent :=
  Nat.shiftLeft_eq ..

theorem log2_magnitude (x : Finite) : Nat.log2 x.magnitude - 52 = x.exponent := by
  have hlt : x.significand < 2 ^ 53 := x.significand_lt
  rw [magnitude_eq]
  obtain hle | hzero := x.normal
  · have hle : 2 ^ 52 ≤ x.significand := hle
    have hpos : 0 < x.significand * 2 ^ x.exponent := by positivity
    have hlog : Nat.log2 (x.significand * 2 ^ x.exponent) = 52 + x.exponent := by
      rw [Nat.log2_eq_iff hpos.ne', Nat.add_right_comm, Nat.pow_add, Nat.pow_add]
      exact ⟨Nat.mul_le_mul_right _ hle, Nat.mul_lt_mul_of_pos_right hlt (by positivity)⟩
    omega
  · rw [hzero, Nat.pow_zero, Nat.mul_one]
    obtain hsig | hsig := Nat.eq_zero_or_pos x.significand
    · rw [hsig]
      rfl
    · have hlog := (Nat.log2_lt hsig.ne').2 hlt
      omega

/-- A whole number of units is a number itself if it has few enough digits. -/
theorem ofQuotient_magnitude (x : Finite) :
    ofQuotient x.negative x.magnitude unitsPerOne = .finite x := by
  have hden : 0 < unitsPerOne * 2 ^ x.exponent := Nat.mul_pos unitsPerOne_pos (by positivity)
  have hround : roundQuotient (x.magnitude * unitsPerOne) (unitsPerOne <<< x.exponent) =
      x.significand := by
    have hnum : x.magnitude * unitsPerOne = unitsPerOne * 2 ^ x.exponent * x.significand := by
      rw [magnitude_eq]
      ring
    rw [hnum, Nat.shiftLeft_eq, ← Nat.mul_one (unitsPerOne * 2 ^ x.exponent), Nat.mul_assoc,
      Nat.one_mul, roundQuotient_mul_left hden, roundQuotient_one]
  rw [ofQuotient, Nat.mul_div_cancel _ unitsPerOne_pos, log2_magnitude, hround, assemble,
    dif_pos ⟨x.significand_lt, x.normal, x.exponent_le⟩]

end Quotients

def Decimal.rational (negative : Bool) (d : Decimal) : ℚ :=
  (if negative then -1 else 1) * d.coefficient * 10 ^ d.exponent

def Finite.written (x : Finite) : Decimal :=
  if x.significand = 0 then ⟨0, 0⟩ else x.shortest

def Finite.decimal (x : Finite) : ℚ :=
  x.written.rational x.negative

def nearest (q : ℚ) : Binary64 :=
  ofQuotient (decide (q < 0)) q.num.natAbs q.den

section Decimals

variable {a b : Nat} {negative : Bool} {x : Finite} {d : Decimal} {q : ℚ}

theorem nearest_eq (hb : 0 < b) (hq : |q| = a / b) :
    nearest q = ofQuotient (decide (q < 0)) a b := by
  refine ofQuotient_congr q.den_pos hb ?_ _
  have hfraction : ((q.num.natAbs : ℕ) : ℚ) / q.den = a / b := by
    rw [← hq, Nat.cast_natAbs, Int.cast_abs, ← Nat.abs_cast q.den, ← abs_div, Rat.num_div_den]
  rw [div_eq_div_iff (by exact_mod_cast q.den_pos.ne') (by exact_mod_cast hb.ne')] at hfraction
  exact_mod_cast hfraction

theorem ofQuotient_zero (negative : Bool) : ofQuotient negative 0 1 =
    .finite ⟨negative, 0, 0, by decide, .inr rfl, Nat.zero_le _⟩ := by
  rw [ofQuotient, Nat.zero_mul]
  rfl

theorem ofQuotient_zero_ne (hx : x.significand ≠ 0) :
    ofQuotient false 0 1 ≠ .finite x.abs := by
  rw [ofQuotient_zero]
  intro h
  exact hx (congrArg Finite.significand (Binary64.finite.inj h)).symm

def Decimal.Rounds (d : Decimal) (x : Finite) : Prop :=
  d.coefficient ≠ 0 ∧ ∃ a b : Nat, 0 < b ∧ (d.coefficient : ℚ) * 10 ^ d.exponent = a / b ∧
    ofQuotient false a b = .finite x.abs

theorem rounds_of_reads (hx : x.significand ≠ 0) (h : d.reads x) : d.Rounds x := by
  obtain ⟨coefficient, exponent⟩ := d
  have hread : ofDecimal false coefficient exponent = .finite x.abs := eq_of_beq h
  unfold ofDecimal at hread
  split at hread
  · exact absurd hread (ofQuotient_zero_ne hx)
  · next hne =>
    split at hread
    · cases hread
    · split at hread
      · next hnonneg =>
        obtain ⟨n, rfl⟩ := Int.eq_ofNat_of_zero_le hnonneg
        refine ⟨hne, coefficient * 10 ^ n, 1, Nat.one_pos, ?_, hread⟩
        push_cast
        rw [zpow_natCast, div_one]
      · next hneg =>
        split at hread
        · exact absurd hread (ofQuotient_zero_ne hx)
        · obtain ⟨n, hn⟩ := Int.eq_ofNat_of_zero_le (a := -exponent) (by omega)
          rw [hn] at hread
          refine ⟨hne, coefficient, 10 ^ n, by positivity, ?_, hread⟩
          rw [← neg_neg exponent, hn, zpow_neg, zpow_natCast]
          push_cast
          rw [div_eq_mul_inv]

theorem rounds_fives (hx : x.significand ≠ 0) (n : Nat)
    (h : ofQuotient false x.magnitude (1 <<< n) = .finite x.abs) :
    Decimal.Rounds ⟨x.magnitude * Nat.pow 5 n, -(n : Int)⟩ x := by
  rw [Nat.one_shiftLeft] at h
  rw [Nat.pow_eq]
  have hmagnitude : x.magnitude ≠ 0 := by
    rw [magnitude_eq]
    positivity
  have hten : (10 : ℚ) ^ n = 5 ^ n * 2 ^ n := by
    rw [← mul_pow]
    norm_num
  refine ⟨by positivity, x.magnitude, 2 ^ n, by positivity, ?_, h⟩
  rw [zpow_neg, zpow_natCast, hten]
  push_cast
  field_simp

theorem rounds_exact (hx : x.significand ≠ 0) : x.exact.Rounds x := by
  have hpower : (-1074 : Int) = -((1074 : Nat) : Int) := rfl
  rw [Finite.exact, hpower]
  apply rounds_fives hx
  exact ofQuotient_magnitude x.abs

theorem rounds_shortest (hx : x.significand ≠ 0) : x.shortest.Rounds x := by
  rw [Finite.shortest]
  cases hfound : (List.range 17).findSome? fun i =>
      (x.neighbours (Nat.toDigits 10 x.exact.coefficient).length (i + 1)).head? with
  | none => exact rounds_exact hx
  | some d =>
      obtain ⟨i, -, hhead⟩ := List.exists_of_findSome?_eq_some hfound
      have hmem := List.mem_of_mem_head? hhead
      exact rounds_of_reads hx (List.mem_filter.1 hmem).2

theorem written_coefficient_ne_zero (hx : x.significand ≠ 0) : x.written.coefficient ≠ 0 := by
  rw [Finite.written, if_neg hx]
  exact (rounds_shortest hx).1

/-- A number is nearest to the decimal that is written for it. -/
theorem nearest_decimal (x : Finite) : (nearest x.decimal).equal (.finite x) := by
  by_cases hx : x.significand = 0
  · have hzero : x.decimal = 0 := by
      rw [Finite.decimal, Finite.written, if_pos hx, Decimal.rational]
      simp
    have hunits : x.units = 0 := by
      rw [Finite.units, magnitude_eq, hx, Nat.zero_mul]
      simp
    have hnearest : nearest 0 = ofQuotient false 0 1 := rfl
    rw [hzero, hnearest, ofQuotient_zero, equal, hunits]
    rfl
  · have hwritten : x.written = x.shortest := if_neg hx
    obtain ⟨hne, a, b, hb, hquotient, hround⟩ := rounds_shortest hx
    have hpos : 0 < (x.shortest.coefficient : ℚ) * 10 ^ x.shortest.exponent :=
      mul_pos (Nat.cast_pos.2 (Nat.pos_of_ne_zero hne)) (zpow_pos (by decide) _)
    have hdecimal : x.decimal = (if x.negative then -1 else 1) *
        ((x.shortest.coefficient : ℚ) * 10 ^ x.shortest.exponent) := by
      rw [Finite.decimal, hwritten, Decimal.rational, mul_assoc]
    have hsign : decide (x.decimal < 0) = x.negative := by
      rw [hdecimal]
      cases x.negative <;> simp [hpos, hpos.le]
    have habs : |x.decimal| = a / b := by
      rw [hdecimal, abs_mul, abs_of_pos hpos, hquotient]
      cases x.negative <;> simp
    rw [nearest_eq hb habs, hsign, ofQuotient_negative hround]
    exact beq_self_eq_true x.units

end Decimals

end TypedConfig.Binary64
