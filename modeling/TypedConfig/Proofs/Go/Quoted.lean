import TypedConfig.Go.Quoted
import Mathlib.Algebra.Group.Nat.Defs
import Mathlib.Data.List.Basic

namespace TypedConfig.Go

open Text (hex hexDigit)

def hexValue? (c : Char) : Option Nat :=
  if '0' ≤ c ∧ c ≤ '9' then some (c.toNat - '0'.toNat)
  else if 'a' ≤ c ∧ c ≤ 'f' then some (c.toNat - 'a'.toNat + 10)
  else if 'A' ≤ c ∧ c ≤ 'F' then some (c.toNat - 'A'.toNat + 10)
  else none

def hexNumber? (cs : List Char) : Option Nat :=
  cs.foldlM (fun n c => (hexValue? c).map (16 * n + ·)) 0

def readHex (count : Nat) (cs : List Char) : Option (Nat × List Char) :=
  if cs.length < count then none else (hexNumber? (cs.take count)).map (·, cs.drop count)

theorem hexValue?_hexDigit {n : Nat} (h : n < 16) : hexValue? (hexDigit n) = some n := by
  revert n
  decide

theorem length_hex (count n : Nat) : (hex count n).length = count := by
  induction count generalizing n with
  | zero => rfl
  | succ count ih => rw [hex, List.length_append, ih, List.length_singleton]

theorem hexNumber?_hex (count n : Nat) : hexNumber? (hex count n) = some (n % 16 ^ count) := by
  induction count generalizing n with
  | zero => rw [Nat.pow_zero, Nat.mod_one]; rfl
  | succ count ih =>
      have hlast := hexValue?_hexDigit (Nat.mod_lt n (by decide : 16 > 0))
      have hfirst := ih (n / 16)
      rw [hexNumber?] at hfirst
      rw [hex, hexNumber?, List.foldlM_append, hfirst, Nat.pow_succ', Nat.mod_mul]
      simp [hlast, Nat.add_comm]

theorem readHex_hex (count n : Nat) (rest : List Char) :
    readHex count (hex count n ++ rest) = some (n % 16 ^ count, rest) := by
  have hlength := length_hex count n
  rw [readHex, if_neg (by simp [hlength]), List.take_left' hlength, List.drop_left' hlength,
    hexNumber?_hex]
  rfl

def letter? : Char → Option Char
  | 'a' => some '\x07'
  | 'b' => some '\x08'
  | 'f' => some '\x0c'
  | 'n' => some '\n'
  | 'r' => some '\r'
  | 't' => some '\t'
  | 'v' => some '\x0b'
  | '\\' => some '\\'
  | '"' => some '"'
  | _ => none

def scalar? (n : Nat) : Option Char :=
  if n.isValidChar then some (Char.ofNat n) else none

def readCode (count limit : Nat) (cs : List Char) : Option (Char × List Char) := do
  let (n, rest) ← readHex count cs
  if limit ≤ n then none else (scalar? n).map (·, rest)

def codeForm? : Char → Option (Nat × Nat)
  | 'x' => some (2, 0x80)
  | 'u' => some (4, 0x110000)
  | 'U' => some (8, 0x110000)
  | _ => none

def readChar : List Char → Option (Char × List Char)
  | [] => none
  | ['\\'] => none
  | '\\' :: letter :: rest =>
    match codeForm? letter with
    | some (count, limit) => readCode count limit rest
    | none => (letter? letter).map (·, rest)
  | c :: rest => if c = '"' ∨ c = '\n' then none else some (c, rest)

def readChars : Nat → List Char → Option (List Char × List Char)
  | fuel + 1, cs =>
    match cs with
    | '"' :: rest => some ([], rest)
    | cs => do
      let (c, rest) ← readChar cs
      let (more, rest) ← readChars fuel rest
      return (c :: more, rest)
  | 0, _ => none

def readString : List Char → Option (String × List Char)
  | '"' :: rest => (readChars rest.length rest).map fun (cs, rest) => (String.ofList cs, rest)
  | _ => none

theorem toNat_lt (c : Char) : c.toNat < 0x110000 := by
  rcases c.valid with h | ⟨-, h⟩
  · exact Nat.lt_trans h (by decide)
  · exact h

theorem scalar?_toNat (c : Char) : scalar? c.toNat = some c := by
  have hvalid : c.toNat.isValidChar := c.valid
  rw [scalar?, if_pos hvalid, Char.ofNat_toNat]

theorem readCode_hex {count limit : Nat} {c : Char} (hlimit : c.toNat < limit)
    (hcount : c.toNat < 16 ^ count) (rest : List Char) :
    readCode count limit (hex count c.toNat ++ rest) = some (c, rest) := by
  rw [readCode, readHex_hex, Nat.mod_eq_of_lt hcount]
  simp [Nat.not_le.2 hlimit, scalar?_toNat]

theorem letter?_of_lookup {c letter : Char} (h : quoteStyle.letters.lookup c = some letter) :
    codeForm? letter = none ∧ letter? letter = some c := by
  have hall : ∀ p ∈ quoteStyle.letters, codeForm? p.2 = none ∧ letter? p.2 = some p.1 := by decide
  obtain ⟨before, after, hsplit, -⟩ := List.lookup_eq_some_iff.1 h
  exact hall (c, letter) (hsplit ▸ List.mem_append_right _ List.mem_cons_self)

theorem readChar_code {letter c : Char} {count limit : Nat}
    (hform : codeForm? letter = some (count, limit)) (hlimit : c.toNat < limit)
    (hcount : c.toNat < 16 ^ count) (rest : List Char) :
    readChar ('\\' :: letter :: hex count c.toNat ++ rest) = some (c, rest) := by
  rw [List.cons_append, List.cons_append, readChar, hform]
  exact readCode_hex hlimit hcount rest

/-- However a character is written, it is read back. -/
theorem readChar_escape (c : Char) (rest : List Char) :
    readChar (quoteStyle.escape c ++ rest) = some (c, rest) := by
  unfold Text.QuoteStyle.escape
  split
  · next letter hletter =>
    obtain ⟨hform, hc⟩ := letter?_of_lookup hletter
    rw [List.cons_append, List.singleton_append, readChar, hform, hc]
    rfl
  · next hletter =>
    split
    · have hraw : c ≠ '\\' ∧ ¬ (c = '"' ∨ c = '\n') := by
        refine ⟨?_, not_or.2 ⟨?_, ?_⟩⟩ <;>
          · rintro rfl
            exact absurd hletter (by decide)
      rw [List.singleton_append, readChar.eq_def]
      split <;> simp_all
    · split
      · next hsmall => exact readChar_code rfl hsmall (Nat.lt_trans hsmall (by decide)) rest
      · split
        · next hsmall =>
          exact readChar_code rfl (toNat_lt c) (Nat.lt_of_le_of_lt hsmall (by decide)) rest
        · exact readChar_code rfl (toNat_lt c) (Nat.lt_trans (toNat_lt c) (by decide)) rest

theorem readChars_cons {c : Char} {cs rest : List Char} {fuel : Nat}
    (h : readChar cs = some (c, rest)) :
    readChars (fuel + 1) cs = do
      let (more, rest) ← readChars fuel rest
      return (c :: more, rest) := by
  rw [readChars, h]
  · rfl
  · rintro rest rfl
    cases h

theorem escape_ne_nil (c : Char) : quoteStyle.escape c ≠ [] := by
  intro hnil
  have hread := readChar_escape c []
  rw [hnil] at hread
  cases hread

theorem length_le_escapeAll (cs : List Char) : cs.length ≤ (quoteStyle.escapeAll cs).length := by
  induction cs with
  | nil => exact Nat.le_refl 0
  | cons c cs ih =>
      have hc := List.length_pos_iff.2 (escape_ne_nil c)
      rw [Text.QuoteStyle.escapeAll, List.flatMap_cons, List.length_append, List.length_cons,
        ← Text.QuoteStyle.escapeAll]
      omega

theorem readChars_escapeAll (cs rest : List Char) {fuel : Nat} (hfuel : cs.length < fuel) :
    readChars fuel (quoteStyle.escapeAll cs ++ '"' :: rest) = some (cs, rest) := by
  induction cs generalizing fuel with
  | nil =>
      obtain ⟨fuel, rfl⟩ := Nat.exists_eq_add_of_le' hfuel
      rfl
  | cons c cs ih =>
      obtain ⟨fuel, rfl⟩ := Nat.exists_eq_add_of_le' (Nat.one_le_of_lt hfuel)
      rw [Text.QuoteStyle.escapeAll, List.flatMap_cons, List.append_assoc,
        ← Text.QuoteStyle.escapeAll, readChars_cons (readChar_escape c _),
        ih (Nat.lt_of_succ_lt_succ hfuel)]
      rfl

theorem readString_quote (s : String) (rest : List Char) :
    readString ((quote s).toList ++ rest) = some (s, rest) := by
  have htext : (quote s).toList ++ rest =
      '"' :: (quoteStyle.escapeAll s.toList ++ '"' :: rest) := by
    rw [quote, String.toList_ofList, quoteChars]
    simp
  have hfuel : s.toList.length < (quoteStyle.escapeAll s.toList ++ '"' :: rest).length := by
    rw [List.length_append, List.length_cons]
    exact Nat.lt_of_le_of_lt (length_le_escapeAll _) (by omega)
  rw [htext, readString, readChars_escapeAll _ rest hfuel]
  exact congrArg (fun text => some (text, rest)) String.ofList_toList

end TypedConfig.Go
