import TypedConfig.Proofs.Go.Elements
import Mathlib.Data.List.DropRight
import Mathlib.Algebra.Group.Nat.Even

namespace TypedConfig.Go

open Text (hex hexDigit isPrintable)

def octalValue? (c : Char) : Option Nat :=
  if '0' ≤ c ∧ c ≤ '7' then some (c.toNat - '0'.toNat) else none

def readNumbered : TextReader UInt8
  | '\\' :: 'x' :: rest => (readHex 2 rest).map fun (n, rest) => (UInt8.ofNat n, rest)
  | '\\' :: a :: b :: c :: rest => do
    let n := 64 * (← octalValue? a) + 8 * (← octalValue? b) + (← octalValue? c)
    if n < 256 then some (UInt8.ofNat n, rest) else none
  | _ => none

def readUnit : TextReader (List UInt8) := fun cs =>
  mapReader (fun b => [b]) readNumbered cs <|> mapReader String.utf8EncodeChar readChar cs

def readUnits : Nat → TextReader (List UInt8)
  | fuel + 1, cs =>
    match cs with
    | '"' :: rest => some ([], rest)
    | cs => do
      let (first, rest) ← readUnit cs
      let (more, rest) ← readUnits fuel rest
      return (first ++ more, rest)
  | 0, _ => none

def readInterpreted : TextReader (List UInt8)
  | '"' :: rest => readUnits rest.length rest
  | _ => none

theorem utf8EncodeChar_of_small {n : Nat} {c : Char} (hn : n < 0x80) (hc : scalar? n = some c) :
    String.utf8EncodeChar c = [UInt8.ofNat n] := by
  unfold scalar? at hc
  split at hc
  · next hvalid =>
    obtain rfl := Option.some.inj hc
    have hval : (Char.ofNat n).val.toNat = n := by
      rw [Char.ofNat, dif_pos hvalid]
      rfl
    simp only [String.utf8EncodeChar, hval]
    rw [if_pos (by omega)]
  · cases hc

/-- Octal digits begin no other escape. -/
theorem escape_of_octalValue? {a : Char} {n : Nat} (h : octalValue? a = some n) :
    codeForm? a = none ∧ letter? a = none := by
  unfold octalValue? at h
  split at h
  · next hrange =>
    have hne (c : Char) (hc : ¬ ('0' ≤ c ∧ c ≤ '7')) : a ≠ c := by
      rintro rfl
      exact hc hrange
    constructor
    · unfold codeForm?
      split
      all_goals first
        | rfl
        | exact absurd rfl (hne _ (by decide))
    · unfold letter?
      split
      all_goals first
        | rfl
        | exact absurd rfl (hne _ (by decide))
  · cases h

/-- Of what is read as a character only two hexadecimal digits stand for a byte as well. -/
theorem readNumbered_eq_none {cs rest : List Char} {c : Char} (h : readChar cs = some (c, rest))
    (hcode : ∀ digits, cs ≠ '\\' :: 'x' :: digits) : readNumbered cs = none := by
  unfold readNumbered
  split
  · exact absurd rfl (hcode _)
  · next a b d text _ =>
    cases ha : octalValue? a with
    | none => rfl
    | some n =>
        obtain ⟨hform, hletter⟩ := escape_of_octalValue? ha
        rw [readChar, hform, hletter] at h
        cases h
  · rfl

/-- Where a character is read, its bytes are. -/
theorem readUnit_of_readChar {cs rest : List Char} {c : Char} (h : readChar cs = some (c, rest)) :
    readUnit cs = some (String.utf8EncodeChar c, rest) := by
  rw [readUnit, mapReader, mapReader, h]
  by_cases hcode : ∃ digits, cs = '\\' :: 'x' :: digits
  · obtain ⟨digits, rfl⟩ := hcode
    have hread : readCode 2 0x80 digits = some (c, rest) := h
    unfold readCode at hread
    obtain ⟨⟨n, text⟩, hn, hread⟩ := Option.bind_eq_some_iff.1 hread
    dsimp only at hread
    split at hread
    · cases hread
    · next hsmall =>
      obtain ⟨d, hd, hpair⟩ := Option.map_eq_some_iff.1 hread
      cases hpair
      rw [readNumbered, hn, utf8EncodeChar_of_small (Nat.not_le.1 hsmall) hd]
      rfl
  · rw [readNumbered_eq_none h (not_exists.1 hcode)]
    rfl

def Escaped (before : List Char) : Prop :=
  Odd (before.rtakeWhile (· == '\\')).length

def lineBreaks : List Char :=
  ['\n', '\x0b', '\x0c', '\r', '\x1c', '\x1d', '\x1e', '\u0085', '\u2028', '\u2029']

/-- The literal is closed by its last quote and not before, and stands on one line. -/
structure Encloses (literal body : List Char) : Prop where
  quotes : literal = '"' :: body ++ ['"']
  escaped : ∀ before after, body = before ++ '"' :: after → Escaped before
  printable : ∀ c ∈ body, isPrintable c ∧ c ∉ lineBreaks

inductive EscapeForm (c : Char) : List Char → Prop
  | raw (hprintable : isPrintable c) (hquote : c ≠ '"') (hbackslash : c ≠ '\\') : EscapeForm c [c]
  | letter {letter : Char} (h : (c, letter) ∈ quoteStyle.letters) : EscapeForm c ['\\', letter]
  | code {letter : Char} {count : Nat} (h : letter ∈ ['x', 'u', 'U']) :
      EscapeForm c ('\\' :: letter :: hex (count + 1) c.toNat)

theorem escapeForm (c : Char) : EscapeForm c (quoteStyle.escape c) := by
  unfold Text.QuoteStyle.escape
  split
  · next letter hletter =>
    obtain ⟨before, after, hsplit, -⟩ := List.lookup_eq_some_iff.1 hletter
    exact .letter (hsplit ▸ List.mem_append_right _ List.mem_cons_self)
  · next hletter =>
    split
    · next hprintable =>
      refine .raw hprintable ?_ ?_
      all_goals
        rintro rfl
        exact absurd hletter (by decide)
    · split
      · exact .code (by simp)
      · split
        · exact .code (by simp)
        · exact .code (by simp)

theorem hexDigit_plain {n : Nat} (h : n < 16) :
    isPrintable (hexDigit n) ∧ hexDigit n ≠ '"' ∧ hexDigit n ≠ '\\' := by
  revert n
  decide

theorem plain_of_mem_hex {count n : Nat} {c : Char} (h : c ∈ hex count n) :
    isPrintable c ∧ c ≠ '"' ∧ c ≠ '\\' := by
  induction count generalizing n with
  | zero => cases h
  | succ count ih =>
      rw [hex, List.mem_append, List.mem_singleton] at h
      obtain h | rfl := h
      · exact ih h
      · exact hexDigit_plain (Nat.mod_lt n (by decide))

theorem isPrintable_of_escapeForm {c d : Char} {text : List Char} (h : EscapeForm c text)
    (hd : d ∈ text) : isPrintable d := by
  have hletters : ∀ p ∈ quoteStyle.letters, isPrintable p.2 := List.all_eq_true.1 (by decide)
  have hcodes : ∀ letter ∈ ['x', 'u', 'U'], isPrintable letter := List.all_eq_true.1 (by decide)
  cases h with
  | raw hprintable => exact List.mem_singleton.1 hd ▸ hprintable
  | letter h =>
      obtain rfl | hd := List.mem_cons.1 hd
      · rfl
      · exact List.mem_singleton.1 hd ▸ hletters _ h
  | code h =>
      obtain rfl | hd := List.mem_cons.1 hd
      · rfl
      · obtain rfl | hd := List.mem_cons.1 hd
        · exact hcodes _ h
        · exact (plain_of_mem_hex hd).1

/-- In the form of a character a quote stands behind a single backslash. -/
theorem before_quote_of_escapeForm {c : Char} {before after text : List Char}
    (h : EscapeForm c text) (htext : text = before ++ '"' :: after) : before = ['\\'] := by
  cases h with
  | raw _ hquote =>
      obtain ⟨-, h⟩ | ⟨_, -, h⟩ := List.append_eq_cons_iff.1 htext.symm
      · exact absurd (List.cons.inj h).1.symm hquote
      · simp at h
  | letter =>
      obtain ⟨-, h⟩ | ⟨front, rfl, h⟩ := List.append_eq_cons_iff.1 htext.symm
      · cases h
      · obtain ⟨rfl, -⟩ | ⟨_, -, h⟩ := List.append_eq_cons_iff.1 h.symm
        · rfl
        · simp at h
  | code hletter =>
      obtain ⟨-, h⟩ | ⟨front, rfl, h⟩ := List.append_eq_cons_iff.1 htext.symm
      · cases h
      · obtain ⟨-, h⟩ | ⟨digits, -, h⟩ := List.append_eq_cons_iff.1 h.symm
        · obtain ⟨rfl, -⟩ := List.cons.inj h
          exact absurd hletter (by decide)
        · have hmem := List.mem_append_right digits (List.mem_cons_self (a := '"') (l := after))
          rw [← h] at hmem
          exact absurd rfl (plain_of_mem_hex hmem).2.1

theorem end_of_escapeForm {c : Char} {text : List Char} (h : EscapeForm c text) :
    text = ['\\', '\\'] ∨ ∃ front last, text = front ++ [last] ∧ last ≠ '\\' := by
  cases h with
  | raw _ _ hbackslash => exact .inr ⟨[], c, rfl, hbackslash⟩
  | @letter letter =>
      by_cases hletter : letter = '\\'
      · exact .inl (hletter ▸ rfl)
      · exact .inr ⟨['\\'], letter, rfl, hletter⟩
  | code =>
      rw [hex]
      exact .inr ⟨_ :: _ :: _, _, rfl, (hexDigit_plain (Nat.mod_lt _ (by decide))).2.2⟩

theorem escapeAll_concat (cs : List Char) (c : Char) :
    quoteStyle.escapeAll (cs ++ [c]) = quoteStyle.escapeAll cs ++ quoteStyle.escape c := by
  rw [Text.QuoteStyle.escapeAll, List.flatMap_append, List.flatMap_singleton]
  rfl

/-- No backslash at the end of quoted characters is left over for what follows them. -/
theorem even_backslashes (cs : List Char) :
    Even ((quoteStyle.escapeAll cs).rtakeWhile (· == '\\')).length := by
  induction cs using List.reverseRecOn with
  | nil => exact .zero
  | append_singleton cs c ih =>
      rw [escapeAll_concat]
      obtain h | ⟨front, last, h, hlast⟩ := end_of_escapeForm (escapeForm c)
      · rw [h, List.append_cons, List.rtakeWhile_concat_pos _ _ _ rfl,
          List.rtakeWhile_concat_pos _ _ _ rfl]
        simpa [Nat.even_add_one] using ih
      · rw [h, ← List.append_assoc, List.rtakeWhile_concat_neg _ _ _ (by simpa using hlast)]
        exact .zero

theorem escaped_of_quote {cs before after : List Char}
    (h : quoteStyle.escapeAll cs = before ++ '"' :: after) : Escaped before := by
  induction cs using List.reverseRecOn generalizing before after with
  | nil => simp [Text.QuoteStyle.escapeAll] at h
  | append_singleton cs c ih =>
      rw [escapeAll_concat] at h
      obtain ⟨front, rfl, hc⟩ | ⟨more, hcs, hc⟩ := List.append_eq_append_iff.1 h
      · rw [before_quote_of_escapeForm (escapeForm c) hc, Escaped,
          List.rtakeWhile_concat_pos _ _ _ rfl, List.length_append]
        exact (even_backslashes cs).add_one
      · obtain ⟨-, hquote⟩ | ⟨more, rfl, -⟩ := List.append_eq_cons_iff.1 hc.symm
        · have hbackslash : [] = ['\\'] := before_quote_of_escapeForm (escapeForm c) hquote
          cases hbackslash
        · exact ih hcs

theorem not_mem_lineBreaks {c : Char} (h : isPrintable c) : c ∉ lineBreaks := by
  have hall : ∀ c ∈ lineBreaks, !isPrintable c := List.all_eq_true.1 (by decide +kernel)
  intro hc
  simpa [h] using hall c hc

theorem readUnits_cons {c : Char} {cs rest : List Char} {fuel : Nat}
    (h : readChar cs = some (c, rest)) :
    readUnits (fuel + 1) cs = do
      let (more, rest) ← readUnits fuel rest
      return (String.utf8EncodeChar c ++ more, rest) := by
  rw [readUnits, readUnit_of_readChar h]
  · rfl
  · rintro rest rfl
    cases h

theorem readUnits_escapeAll (cs rest : List Char) {fuel : Nat} (hfuel : cs.length < fuel) :
    readUnits fuel (quoteStyle.escapeAll cs ++ '"' :: rest) =
      some (cs.flatMap String.utf8EncodeChar, rest) := by
  induction cs generalizing fuel with
  | nil =>
      obtain ⟨fuel, rfl⟩ := Nat.exists_eq_add_of_le' hfuel
      rfl
  | cons c cs ih =>
      obtain ⟨fuel, rfl⟩ := Nat.exists_eq_add_of_le' (Nat.one_le_of_lt hfuel)
      rw [Text.QuoteStyle.escapeAll, List.flatMap_cons, List.append_assoc,
        ← Text.QuoteStyle.escapeAll, readUnits_cons (readChar_escape c _),
        ih (Nat.lt_of_succ_lt_succ hfuel)]
      rfl

theorem toUTF8_eq (s : String) : s.toUTF8.data.toList = s.toList.flatMap String.utf8EncodeChar := by
  conv_lhs => rw [← String.ofList_toList (s := s)]
  rw [String.toUTF8, String.toByteArray_ofList, List.utf8Encode, List.toList_data_toByteArray]

theorem encloses_quoteChars (cs : List Char) :
    Encloses (quoteChars cs) (quoteStyle.escapeAll cs) where
  quotes := rfl
  escaped _ _ := escaped_of_quote
  printable c hc := by
    obtain ⟨d, -, hd⟩ := List.mem_flatMap.1 hc
    have hprintable := isPrintable_of_escapeForm (escapeForm d) hd
    exact ⟨hprintable, not_mem_lineBreaks hprintable⟩

/-- Between the quotes of a quoted text nothing closes the literal or leaves the line, and whatever
source follows it, a compiler takes exactly the literal and finds the bytes of the text in it. -/
theorem quote_encloses_text (s : String) :
    Encloses (quote s).toList (quoteStyle.escapeAll s.toList) ∧
      ∀ rest, readInterpreted ((quote s).toList ++ rest) = some (s.toUTF8.data.toList, rest) := by
  have htext : (quote s).toList = quoteChars s.toList := by
    rw [quote, String.toList_ofList]
  rw [htext, toUTF8_eq]
  refine ⟨encloses_quoteChars _, fun rest => ?_⟩
  have hfuel : s.toList.length < (quoteStyle.escapeAll s.toList ++ '"' :: rest).length := by
    have hlength := length_le_escapeAll s.toList
    rw [List.length_append, List.length_cons]
    omega
  rw [quoteChars, List.cons_append, List.cons_append, List.append_assoc, readInterpreted,
    List.singleton_append, readUnits_escapeAll _ rest hfuel]

end TypedConfig.Go
