import TypedConfig.Proofs.Naming.Identifier
import Mathlib

namespace TypedConfig.Naming

theorem chunks_ne_nil (cs : List Char) : chunks cs ≠ [] := by
  cases cs with
  | nil => simp [chunks]
  | cons c cs =>
      rw [chunks]
      split <;> simp

/-- Of a key only its separators are dropped. -/
theorem flatten_chunks (cs : List Char) : (chunks cs).flatten = cs.filter isWordChar := by
  induction cs with
  | nil => rfl
  | cons c cs ih =>
      obtain ⟨chunk, more, hchunks⟩ := List.exists_cons_of_ne_nil (chunks_ne_nil cs)
      rw [hchunks, List.flatten_cons] at ih
      rw [chunks, hchunks]
      cases hc : isWordChar c with
      | true => rw [List.filter_cons_of_pos hc, ← ih]; rfl
      | false => rw [List.filter_cons_of_neg (by simp [hc]), ← ih]; rfl

theorem chunks_of_isWordChar {cs : List Char} (h : ∀ c ∈ cs, isWordChar c) : chunks cs = [cs] := by
  induction cs with
  | nil => rfl
  | cons c cs ih =>
      obtain ⟨hc, hcs⟩ := List.forall_mem_cons.1 h
      rw [chunks, ih hcs, hc]

/-- The first word starts where the text does, and every other one at a capital. -/
theorem words_cons (c : Char) (cs : List Char) :
    ∃ first more, words (c :: cs) = (c :: first) :: more ∧ c :: first ++ more.flatten = c :: cs ∧
      ∀ word ∈ more, word.head?.any Char.isUpper := by
  induction cs generalizing c with
  | nil => exact ⟨[], [], rfl, rfl, by simp⟩
  | cons b cs ih =>
      obtain ⟨first, more, hwords, hflatten, hmore⟩ := ih b
      rw [words, hwords]
      dsimp only
      split
      · next hboundary =>
        refine ⟨[], _, rfl, by simpa using hflatten, List.forall_mem_cons.2 ⟨?_, hmore⟩⟩
        rw [isBoundary, Bool.and_eq_true] at hboundary
        exact hboundary.1
      · exact ⟨b :: first, more, rfl, by simpa using hflatten, hmore⟩

theorem flatten_words (cs : List Char) : (words cs).flatten = cs := by
  cases cs with
  | nil => rfl
  | cons c cs =>
      obtain ⟨first, more, hwords, hflatten, -⟩ := words_cons c cs
      rw [hwords, List.flatten_cons, hflatten]

theorem flatten_flatMap_words (runs : List (List Char)) :
    (runs.flatMap words).flatten = runs.flatten := by
  induction runs with
  | nil => rfl
  | cons run runs ih =>
      rw [List.flatMap_cons, List.flatten_append, flatten_words, ih, List.flatten_cons]

theorem map_toLower_capitalize (word : List Char) :
    (capitalize word).map Char.toLower = word.map Char.toLower := by
  cases word with
  | nil => rfl
  | cons c word =>
      rw [capitalize, List.map_cons, List.map_cons, Char.toLower_toUpper_eq_toLower]

theorem map_toLower_flatMap_capitalize (words : List (List Char)) :
    (words.flatMap capitalize).map Char.toLower = words.flatten.map Char.toLower := by
  induction words with
  | nil => rfl
  | cons word words ih =>
      rw [List.flatMap_cons, List.map_append, map_toLower_capitalize, ih, List.flatten_cons,
        List.map_append]

/-- Joining the words of a key changes no more than the case of its letters. -/
theorem map_toLower_joined (key : List Char) :
    (joined key).map Char.toLower = (key.filter isWordChar).map Char.toLower := by
  rw [joined, map_toLower_flatMap_capitalize, flatten_flatMap_words, flatten_chunks]

theorem flatMap_capitalize_of_isUpper {words : List (List Char)}
    (h : ∀ word ∈ words, word.head?.any Char.isUpper) :
    words.flatMap capitalize = words.flatten := by
  induction words with
  | nil => rfl
  | cons word words ih =>
      obtain ⟨hword, hwords⟩ := List.forall_mem_cons.1 h
      rw [List.flatMap_cons, List.flatten_cons, ih hwords]
      cases word with
      | nil => rfl
      | cons c word =>
          rw [capitalize, Char.toUpper_eq_of_not_isLower (Char.not_isLower_of_isUpper hword)]

theorem isLower_head?_joined {key : List Char} {c : Char} (h : c ∈ (joined key).head?) :
    c.isLower = false := by
  rw [joined] at h
  generalize (chunks key).flatMap words = words at h
  induction words with
  | nil => cases h
  | cons word words ih =>
      cases word with
      | nil => exact ih h
      | cons d word =>
          obtain rfl := Option.some.inj h
          exact Char.isLower_toUpper_eq_false d

theorem isAlpha_of_isDigit {c : Char} (h : c.isDigit) : c.isAlpha = false := by
  rw [Char.isDigit, Bool.and_eq_true, decide_eq_true_eq, decide_eq_true_eq] at h
  have hnine : c.val ≤ '9'.val := h.2
  have hletter (letter : Char) (hlt : '9'.val < letter.val) : ¬ letter.val ≤ c.val := fun hle =>
    absurd (UInt32.lt_of_lt_of_le hlt hle) (UInt32.not_lt.2 hnine)
  have hupper : c.isUpper = false := decide_eq_false fun h => hletter 'A' (by decide) h.1
  have hlower : c.isLower = false := by
    rw [Char.isLower, decide_eq_false (hletter 'a' (by decide)), Bool.false_and]
  rw [Char.isAlpha, hupper, hlower, Bool.or_false]

/-- An `X` stands in front of a key whose first letter or digit is no letter. -/
def marker (key : List Char) : List Char :=
  if (key.filter isWordChar).head?.any Char.isAlpha then [] else ['X']

theorem any_isAlpha_map_toLower (cs : List Char) :
    (cs.map Char.toLower).head?.any Char.isAlpha = cs.head?.any Char.isAlpha := by
  cases cs with
  | nil => rfl
  | cons c cs => exact Char.isAlpha_toLower_eq_isAlpha c

theorem pascalChars_eq (key : List Char) : pascalChars key = marker key ++ joined key := by
  -- A capital may stand in place of the first letter, but no letter in place of a digit.
  have hfirst : (key.filter isWordChar).head?.any Char.isAlpha =
      (joined key).head?.any Char.isAlpha := by
    rw [← any_isAlpha_map_toLower, ← map_toLower_joined, any_isAlpha_map_toLower]
  rw [marker, hfirst, pascalChars_eq_joined]
  split
  · next hjoined => rw [hjoined]; rfl
  · next c rest hjoined =>
    have hc : isWordChar c := isWordChar_of_joined key c (by rw [hjoined]; exact List.mem_cons_self)
    rw [hjoined, List.head?_cons, Option.any_some]
    cases hdigit : c.isDigit with
    | true => rw [isAlpha_of_isDigit hdigit, if_neg Bool.false_ne_true]; rfl
    | false =>
        have halpha : c.isAlpha := by
          rw [isWordChar, Char.isAlphanum, hdigit, Bool.or_false] at hc
          exact hc
        rw [if_neg (by simp), if_pos halpha]
        rfl

def IsExported (name : List Char) : Prop :=
  ∃ c rest, name = c :: rest ∧ c.isUpper ∧ ∀ d ∈ rest, d.isAlphanum

theorem isExported_pascalChars (key : List Char) : IsExported (pascalChars key) := by
  have hword := isWordChar_of_joined key
  have hlower := @isLower_head?_joined key
  rw [pascalChars_eq_joined]
  split
  · exact ⟨'X', [], rfl, rfl, by simp⟩
  · next c rest hjoined =>
    rw [hjoined] at hword hlower ⊢
    split
    · exact ⟨'X', c :: rest, rfl, rfl, hword⟩
    · next hdigit =>
      obtain ⟨hc, hrest⟩ := List.forall_mem_cons.1 hword
      have hupper : c.isUpper := by
        simpa [isWordChar, Char.isAlphanum, Char.isAlpha, hdigit, hlower rfl] using hc
      exact ⟨c, rest, rfl, hupper, hrest⟩

theorem pascalChars_of_isExported {name : List Char} (h : IsExported name) :
    pascalChars name = name := by
  obtain ⟨c, rest, rfl, hc, hrest⟩ := h
  have halpha : c.isAlpha := by rw [Char.isAlpha, hc, Bool.true_or]
  have hword : ∀ d ∈ c :: rest, isWordChar d :=
    List.forall_mem_cons.2 ⟨by rw [isWordChar, Char.isAlphanum, halpha, Bool.true_or], hrest⟩
  have hjoined : joined (c :: rest) = c :: rest := by
    obtain ⟨first, more, hwords, hflatten, hmore⟩ := words_cons c rest
    have hupper : ∀ word ∈ (c :: first) :: more, word.head?.any Char.isUpper :=
      List.forall_mem_cons.2 ⟨by rw [List.head?_cons, Option.any_some, hc], hmore⟩
    rw [joined, chunks_of_isWordChar hword, List.flatMap_singleton, hwords,
      flatMap_capitalize_of_isUpper hupper, List.flatten_cons, hflatten]
  rw [pascalChars_eq, hjoined, marker, List.filter_eq_self.2 hword]
  rw [List.head?_cons, Option.any_some, if_pos halpha, List.nil_append]

/-- The name of a key is an exported identifier, which names itself, and has the letters and digits
of the key in order, in either case, behind an `X` if the first of them is no letter. -/
theorem pascalCase_exported (key : String) :
    IsExported (pascalCase key).toList ∧ pascalCase (pascalCase key) = pascalCase key ∧
      ∃ name, (pascalCase key).toList = marker key.toList ++ name ∧
        name.map Char.toLower = (key.toList.filter Char.isAlphanum).map Char.toLower := by
  have hname : (pascalCase key).toList = pascalChars key.toList := by
    rw [pascalCase, String.toList_ofList]
  have hexported := isExported_pascalChars key.toList
  refine ⟨hname ▸ hexported, ?_, joined key.toList, ?_, map_toLower_joined _⟩
  · rw [pascalCase, hname, pascalChars_of_isExported hexported]
    rfl
  · rw [hname, pascalChars_eq]

end TypedConfig.Naming
