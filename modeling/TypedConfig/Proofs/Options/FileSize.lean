import TypedConfig.Options.FileSize
import TypedConfig.Proofs.Text.Blank
import Mathlib

namespace TypedConfig.FileSize

open Decimal (isDigit maxDigits readNat value)
open Text (isBlank trim upper upperChar)

def unitNames : List (List Char) :=
  [['B'], ['K', 'B'], ['M', 'B'], ['G', 'B'], ['T', 'B']]

/-- A size as it is written: a row of digits and perhaps the name of a unit in letters of either
case, with blanks at both ends and before the unit. The unit is a power of 1024. -/
structure Spelling where
  before : List Char
  number : List Char
  gap : List Char
  unit : List Char
  after : List Char
  power : ℕ
  before_blank : ∀ c ∈ before, isBlank c
  gap_blank : ∀ c ∈ gap, isBlank c
  after_blank : ∀ c ∈ after, isBlank c
  number_digits : ∀ c ∈ number, isDigit c
  number_ne_nil : number ≠ []
  unit_named : unit = [] ∧ power = 0 ∨ unitNames[power]? = some (unit.map Char.toUpper)

def Spelling.text (s : Spelling) : List Char :=
  s.before ++ (s.number ++ (s.gap ++ (s.unit ++ s.after)))

def Spelling.bytes (s : Spelling) : ℕ :=
  value s.number * 1024 ^ s.power

def sizeRanges : List (ℕ × ℕ) :=
  (0x1c, 0x1f) :: (0x30, 0x39) :: (0x42, 0x42) :: (0x47, 0x47) :: (0x4b, 0x4b) :: (0x4d, 0x4d) ::
    (0x54, 0x54) :: Text.spaceRanges

def isSizeChar (c : Char) : Bool :=
  sizeRanges.any fun r => r.1 ≤ c.toNat && c.toNat ≤ r.2

theorem isSizeChar_iff {c : Char} :
    isSizeChar c ↔ ∃ s ∈ sizeRanges, s.1 ≤ c.toNat ∧ c.toNat ≤ s.2 := by
  simp [isSizeChar]

theorem isDigit_iff {c : Char} : isDigit c ↔ 0x30 ≤ c.toNat ∧ c.toNat ≤ 0x39 := by
  rw [isDigit, Bool.and_eq_true, decide_eq_true_iff, decide_eq_true_iff]
  exact Iff.rfl

theorem isSizeChar_of_isDigit {c : Char} (h : isDigit c) : isSizeChar c :=
  isSizeChar_iff.2 ⟨(0x30, 0x39), by decide, isDigit_iff.1 h⟩

theorem isSizeChar_of_isBlank {c : Char} (h : isBlank c) : isSizeChar c := by
  have hranges : ∀ s ∈ (0x1c, 0x1f) :: Text.spaceRanges, s ∈ sizeRanges := by decide
  obtain ⟨s, hs, hc⟩ := Text.isBlank_iff.1 h
  exact isSizeChar_iff.2 ⟨s, hranges s hs, hc⟩

theorem isSizeChar_of_mem_unit {name : List Char} (h : name ∈ unitNames) :
    ∀ c ∈ name, isSizeChar c := by
  have hall : (unitNames.all fun name => name.all isSizeChar) = true := by decide
  exact List.all_eq_true.1 (List.all_eq_true.1 hall name h)

/-- The letters that have several capitals stand in no size, nor do all these capitals. -/
theorem expansion_apart : ∀ e ∈ Text.caseExpansions,
    (∀ s ∈ sizeRanges, e.1 < s.1 ∨ s.2 < e.1) ∧
      ∃ n ∈ e.2, isSizeChar (Char.ofNat n) = false := by
  decide +kernel

/-- The letters beyond ASCII that have one capital stand in no size, nor does this capital. -/
theorem caseRun_apart : ∀ r ∈ Text.caseRuns, ∀ s ∈ sizeRanges, 0 < s.1 ∧
    (r.last < s.1 ∨ s.2 < r.first) ∧ (r.last + r.shift < s.1 ∨ s.2 < r.first + r.shift) := by
  decide +kernel

theorem not_isSizeChar_capital {r : Text.CaseRun} (hr : r ∈ Text.caseRuns) {n : ℕ}
    (h : r.covers n) : isSizeChar (Char.ofNat (n + r.shift).toNat) = false := by
  rw [Bool.eq_false_iff]
  intro hsize
  obtain ⟨s, hs, hlow, hhigh⟩ := isSizeChar_iff.1 hsize
  obtain ⟨hpos, -, hapart⟩ := caseRun_apart r hr s hs
  simp only [Text.CaseRun.covers, Bool.and_eq_true, decide_eq_true_eq] at h
  rw [Char.toNat_ofNat] at hlow hhigh
  split_ifs at hlow hhigh
  · omega
  · omega

theorem toUpper_of_le {c : Char} (h : ¬ c.toNat < 0x80) : c.toUpper = c := by
  refine Char.toUpper_eq_of_not_isLower fun hlower => h ?_
  have hz : c ≤ 'z' := of_decide_eq_true (Bool.and_eq_true_iff.1 hlower).2
  exact Nat.lt_of_le_of_lt hz (by decide)

/-- What turns into characters of a size does so letter by letter, as in ASCII. -/
theorem upperChar_of_isSizeChar {c : Char} (h : ∀ d ∈ upperChar c, isSizeChar d) :
    upperChar c = [c.toUpper] := by
  by_cases hascii : c.toNat < 0x80
  · rw [upperChar, if_pos hascii]
  rw [upperChar, if_neg hascii] at h ⊢
  rw [toUpper_of_le hascii]
  cases hexpansion : Text.caseExpansions.lookup c.toNat with
  | some ns =>
      obtain ⟨_, _, heq, -⟩ := List.lookup_eq_some_iff.1 hexpansion
      obtain ⟨-, n, hn, hsize⟩ := expansion_apart (c.toNat, ns) (by simp [heq])
      have := h (Char.ofNat n) (by simpa [hexpansion] using ⟨n, hn, rfl⟩)
      simp [this] at hsize
  | none =>
      cases hrun : Text.caseRuns.find? (·.covers c.toNat) with
      | some r =>
          have hcovers : r.covers c.toNat := by simpa using List.find?_some hrun
          have hsize := not_isSizeChar_capital (List.mem_of_find?_eq_some hrun) hcovers
          have := h (Char.ofNat (c.toNat + r.shift).toNat) (by simp [hexpansion, hrun])
          simp [this] at hsize
      | none => rfl

theorem upperChar_of_toUpper {c : Char} (h : isSizeChar c.toUpper) :
    upperChar c = [c.toUpper] := by
  by_cases hascii : c.toNat < 0x80
  · rw [upperChar, if_pos hascii]
  rw [toUpper_of_le hascii] at h ⊢
  obtain ⟨s, hs, hlow, hhigh⟩ := isSizeChar_iff.1 h
  have hexpansion : Text.caseExpansions.lookup c.toNat = none := by
    refine List.lookup_eq_none_iff.2 fun e he => ?_
    have := (expansion_apart e he).1 s hs
    simp only [bne_iff_ne]
    omega
  have hrun : Text.caseRuns.find? (·.covers c.toNat) = none := by
    refine List.find?_eq_none.2 fun r hr => ?_
    have := (caseRun_apart r hr s hs).2.1
    simp only [Text.CaseRun.covers, Bool.and_eq_true, decide_eq_true_eq]
    omega
  rw [upperChar, if_neg hascii, hexpansion, hrun]

/-- A text has the capitals of a size exactly if it has them letter by letter, as in ASCII. -/
theorem upper_eq_iff {cs ds : List Char} (hds : ∀ d ∈ ds, isSizeChar d) :
    cs.flatMap upperChar = ds ↔ cs.map Char.toUpper = ds := by
  rw [List.map_eq_flatMap]
  constructor
  · rintro rfl
    refine List.flatMap_congr fun c hc => (upperChar_of_isSizeChar fun d hd => ?_).symm
    exact hds d (List.mem_flatMap.2 ⟨c, hc, hd⟩)
  · rintro rfl
    refine List.flatMap_congr fun c hc => upperChar_of_toUpper ?_
    exact hds _ (List.mem_flatMap.2 ⟨c, hc, List.mem_singleton_self _⟩)

theorem isAlpha_eq_false {c : Char} (h : c.toNat < 0x41 ∨ 0x7a < c.toNat) : c.isAlpha = false := by
  rw [Bool.eq_false_iff]
  intro halpha
  obtain hupper | hlower := Bool.or_eq_true_iff.1 halpha
  · obtain ⟨hlow, hhigh⟩ : 0x41 ≤ c.toNat ∧ c.toNat ≤ 0x5a := of_decide_eq_true hupper
    omega
  · obtain ⟨hlow, hhigh⟩ := Bool.and_eq_true_iff.1 hlower
    have hlow : 0x61 ≤ c.toNat := of_decide_eq_true hlow
    have hhigh : c.toNat ≤ 0x7a := of_decide_eq_true hhigh
    omega

theorem isAlpha_of_isDigit {c : Char} (h : isDigit c) : c.isAlpha = false := by
  have hdigit := isDigit_iff.1 h
  exact isAlpha_eq_false (.inl (by omega))

theorem isAlpha_of_isBlank {c : Char} (h : isBlank c) : c.isAlpha = false := by
  have hranges : ∀ s ∈ (0x1c, 0x1f) :: Text.spaceRanges, s.2 < 0x41 ∨ 0x7a < s.1 := by decide
  obtain ⟨s, hs, hlow, hhigh⟩ := Text.isBlank_iff.1 h
  have := hranges s hs
  exact isAlpha_eq_false (by omega)

theorem not_isBlank_of_isDigit {c : Char} (h : isDigit c) : isBlank c = false := by
  have hranges : ∀ s ∈ (0x1c, 0x1f) :: Text.spaceRanges, s.2 < 0x30 ∨ 0x39 < s.1 := by decide
  have hdigit := isDigit_iff.1 h
  rw [Bool.eq_false_iff]
  intro hblank
  obtain ⟨s, hs, hlow, hhigh⟩ := Text.isBlank_iff.1 hblank
  have := hranges s hs
  omega

/-- Nothing but a letter has another character as its capital. -/
theorem map_toUpper_eq_iff {cs ds : List Char} (hds : ∀ d ∈ ds, d.isAlpha = false) :
    cs.map Char.toUpper = ds ↔ cs = ds := by
  have hself {c : Char} (h : c.isAlpha = false) : c.toUpper = c :=
    Char.toUpper_eq_of_not_isLower fun hlower => by simp [Char.isAlpha, hlower] at h
  constructor
  · rintro rfl
    refine (List.map_id _).symm.trans (List.map_congr_left fun c hc => (hself ?_).symm)
    rw [← Char.isAlpha_toUpper_eq_isAlpha]
    exact hds _ (List.mem_map_of_mem hc)
  · rintro rfl
    exact (List.map_congr_left fun c hc => hself (hds c hc)).trans (List.map_id _)

/-- The unit that a name in capitals stands for. -/
theorem find?_unit {front name : List Char} {power : ℕ} (hname : unitNames[power]? = some name)
    (hfront : ∀ c ∈ front.getLast?, c.isAlpha = false) :
    (units.find? fun u => u.1.isSuffixOf (front ++ name)) = some (name, 1024 ^ power) := by
  have hletter (letter : Char) (h : letter.isAlpha) :
      [letter].isPrefixOf front.reverse = false := by
    refine Bool.eq_false_iff.2 fun hprefix => ?_
    obtain ⟨rest, hrest⟩ := List.isPrefixOf_iff_prefix.1 hprefix
    have hlast := hfront letter (by rw [← List.head?_reverse, ← hrest]; rfl)
    simp [hlast] at h
  -- The longer names end in that of the byte, so a letter in front of it would name them.
  rcases power with _ | _ | _ | _ | _ | power <;> cases hname
  · simp [units, List.isSuffixOf, hletter]
  all_goals simp [units, List.isSuffixOf]

theorem splitUnit_of_unit {front name : List Char} {power : ℕ}
    (hname : unitNames[power]? = some name) (hfront : ∀ c ∈ front.getLast?, c.isAlpha = false) :
    splitUnit (front ++ name) = ((Text.dropBlankEnd front).dropWhile isBlank, 1024 ^ power) := by
  rw [splitUnit, find?_unit hname hfront]
  simp [dropEnd]

theorem splitUnit_of_digits {number : List Char} (h : ∀ c ∈ number, isDigit c) :
    splitUnit number = (number, 1) := by
  have hlast : ∀ u ∈ units, 'B' ∈ u.1 := by decide
  have hfind : (units.find? fun u => u.1.isSuffixOf number) = none := by
    refine List.find?_eq_none.2 fun u hu hsuffix => ?_
    have := h 'B' ((List.isSuffixOf_iff_suffix.1 hsuffix).subset (hlast u hu))
    contradiction
  rw [splitUnit, hfind]

theorem exists_of_splitUnit {cs number : List Char} {factor : ℕ}
    (h : splitUnit cs = (number, factor)) : ∃ lead gap name power,
      cs = lead ++ (number ++ (gap ++ name)) ∧ (∀ c ∈ lead, isBlank c) ∧ (∀ c ∈ gap, isBlank c) ∧
      (name = [] ∧ power = 0 ∨ unitNames[power]? = some name) ∧ factor = 1024 ^ power := by
  have hunits : ∀ u ∈ units, ∃ power < 5, unitNames[power]? = some u.1 ∧ u.2 = 1024 ^ power := by
    decide
  rw [splitUnit] at h
  split at h
  · next name factor' hfind =>
    cases h
    obtain ⟨power, -, hname, rfl⟩ := hunits _ (List.mem_of_find?_eq_some hfind)
    have hsuffix : name.isSuffixOf cs := by simpa using List.find?_some hfind
    obtain ⟨front, rfl⟩ := List.isSuffixOf_iff_suffix.1 hsuffix
    have hdrop : dropEnd (front ++ name) name.length = front := by simp [dropEnd]
    obtain ⟨gap, hgap, hend⟩ := Text.exists_dropTrailing isBlank front
    obtain ⟨lead, hlead, hstart⟩ := Text.exists_dropWhile isBlank (Text.dropBlankEnd front)
    refine ⟨lead, gap, name, power, ?_, hlead, hgap, .inr hname, rfl⟩
    rw [hdrop, ← List.append_assoc, ← hstart, ← List.append_assoc]
    exact congrArg (· ++ name) hend
  · cases h
    exact ⟨[], [], [], 0, by simp, by simp, by simp, .inl ⟨rfl, rfl⟩, rfl⟩

section Spelled

variable {text : String}

theorem not_isBlank_of_unit {unit : List Char} (h : unit.map Char.toUpper ∈ unitNames) :
    ∀ c ∈ unit, isBlank c = false := by
  intro c hc
  have hall : (unitNames.all fun name => name.all Char.isAlpha) = true := by decide
  have halpha : c.toUpper.isAlpha :=
    List.all_eq_true.1 (List.all_eq_true.1 hall _ h) _ (List.mem_map_of_mem hc)
  rw [Char.isAlpha_toUpper_eq_isAlpha] at halpha
  refine Bool.eq_false_iff.2 fun hblank => ?_
  simp [isAlpha_of_isBlank hblank] at halpha

theorem toList_upper_trim {core ds : List Char} (htrim : (trim text).toList = core)
    (hds : ∀ d ∈ ds, isSizeChar d) (hcore : core.map Char.toUpper = ds) :
    (upper (trim text)).toList = ds := by
  rw [upper, String.toList_ofList, htrim]
  exact (upper_eq_iff hds).2 hcore

namespace Spelling

variable (s : Spelling)

theorem not_isBlank_head? : ∀ c ∈ s.number.head?, isBlank c = false :=
  fun c hc => not_isBlank_of_isDigit (s.number_digits c (List.mem_of_head? hc))

theorem not_isBlank_getLast? : ∀ c ∈ s.number.getLast?, isBlank c = false :=
  fun c hc => not_isBlank_of_isDigit (s.number_digits c (List.mem_of_getLast? hc))

theorem isSizeChar_number : ∀ c ∈ s.number, isSizeChar c :=
  fun c hc => isSizeChar_of_isDigit (s.number_digits c hc)

theorem map_toUpper_number : s.number.map Char.toUpper = s.number :=
  (map_toUpper_eq_iff fun c hc => isAlpha_of_isDigit (s.number_digits c hc)).2 rfl

theorem map_toUpper_gap : s.gap.map Char.toUpper = s.gap :=
  (map_toUpper_eq_iff fun c hc => isAlpha_of_isBlank (s.gap_blank c hc)).2 rfl

variable {s} (h : text.toList = s.text)

include h

theorem splitUnit_of_no_unit (hunit : s.unit = []) :
    splitUnit (upper (trim text)).toList = (s.number, 1) := by
  have hafter : ∀ c ∈ s.gap ++ s.after, isBlank c :=
    List.forall_mem_append.2 ⟨s.gap_blank, s.after_blank⟩
  have htrim : (trim text).toList = s.number := by
    refine Text.toList_trim s.number_ne_nil s.before_blank hafter s.not_isBlank_head?
      s.not_isBlank_getLast? ?_
    rw [h, Spelling.text, hunit, List.nil_append]
  rw [toList_upper_trim htrim s.isSizeChar_number s.map_toUpper_number,
    splitUnit_of_digits s.number_digits]

theorem splitUnit_of_named (hname : unitNames[s.power]? = some (s.unit.map Char.toUpper)) :
    splitUnit (upper (trim text)).toList = (s.number, 1024 ^ s.power) := by
  have hmem := List.mem_of_getElem? hname
  have hunit : s.unit ≠ [] := by
    rintro hunit
    rw [hunit] at hmem
    exact absurd hmem (by decide)
  have htrim : (trim text).toList = s.number ++ (s.gap ++ s.unit) := by
    refine Text.toList_trim (by simp [s.number_ne_nil]) s.before_blank s.after_blank ?_ ?_ ?_
    · rw [List.head?_append_of_ne_nil _ s.number_ne_nil]
      exact s.not_isBlank_head?
    · rw [← List.append_assoc, List.getLast?_append_of_ne_nil _ hunit]
      exact fun c hc => not_isBlank_of_unit hmem c (List.mem_of_getLast? hc)
    · rw [h, Spelling.text, List.append_assoc, List.append_assoc]
  have hsize : ∀ d ∈ s.number ++ (s.gap ++ s.unit.map Char.toUpper), isSizeChar d := by
    refine List.forall_mem_append.2 ⟨s.isSizeChar_number, List.forall_mem_append.2 ⟨?_, ?_⟩⟩
    · exact fun c hc => isSizeChar_of_isBlank (s.gap_blank c hc)
    · exact isSizeChar_of_mem_unit hmem
  have hcapitals : (s.number ++ (s.gap ++ s.unit)).map Char.toUpper =
      s.number ++ (s.gap ++ s.unit.map Char.toUpper) := by
    rw [List.map_append, List.map_append, s.map_toUpper_number, s.map_toUpper_gap]
  have hfront : ∀ c ∈ (s.number ++ s.gap).getLast?, c.isAlpha = false := by
    intro c hc
    obtain hc | hc := List.mem_append.1 (List.mem_of_getLast? hc)
    · exact isAlpha_of_isDigit (s.number_digits c hc)
    · exact isAlpha_of_isBlank (s.gap_blank c hc)
  have hend : Text.dropBlankEnd (s.number ++ s.gap) = s.number :=
    Text.dropTrailing_append_of_stop s.not_isBlank_getLast? s.gap_blank
  have hstart : ([] ++ s.number).dropWhile isBlank = s.number :=
    Text.dropWhile_append_of_stop (by simp) s.not_isBlank_head?
  rw [toList_upper_trim htrim hsize hcapitals, ← List.append_assoc,
    splitUnit_of_unit hname hfront, hend]
  exact congrArg (·, _) hstart

theorem splitUnit_eq : splitUnit (upper (trim text)).toList = (s.number, 1024 ^ s.power) := by
  obtain ⟨hunit, hpower⟩ | hname := s.unit_named
  · rw [splitUnit_of_no_unit h hunit, hpower, pow_zero]
  · exact splitUnit_of_named h hname

end Spelling

theorem exists_spelling {number : List Char} {factor : ℕ}
    (h : splitUnit (upper (trim text)).toList = (number, factor)) (hne : number ≠ [])
    (hdigits : ∀ c ∈ number, isDigit c) :
    ∃ s : Spelling, text.toList = s.text ∧ s.number = number ∧ 1024 ^ s.power = factor := by
  obtain ⟨lead, gap, name, power, hcapitals, hlead, hgap, hname, rfl⟩ := exists_of_splitUnit h
  obtain ⟨before, after, hbefore, hafter, htext⟩ := Text.exists_toList_trim text
  have hsize : ∀ d ∈ lead ++ (number ++ (gap ++ name)), isSizeChar d := by
    simp only [List.forall_mem_append]
    refine ⟨fun c hc => isSizeChar_of_isBlank (hlead c hc),
      fun c hc => isSizeChar_of_isDigit (hdigits c hc),
      fun c hc => isSizeChar_of_isBlank (hgap c hc), ?_⟩
    obtain ⟨rfl, -⟩ | hname := hname
    · simp
    · exact isSizeChar_of_mem_unit (List.mem_of_getElem? hname)
  rw [upper, String.toList_ofList, upper_eq_iff hsize] at hcapitals
  obtain ⟨lead', rest, hcore, hlead', hrest⟩ := List.map_eq_append_iff.1 hcapitals
  obtain ⟨number', rest, rfl, hnumber', hrest⟩ := List.map_eq_append_iff.1 hrest
  obtain ⟨gap', unit, rfl, hgap', hunit⟩ := List.map_eq_append_iff.1 hrest
  obtain rfl := (map_toUpper_eq_iff fun c hc => isAlpha_of_isBlank (hlead c hc)).1 hlead'
  obtain rfl := (map_toUpper_eq_iff fun c hc => isAlpha_of_isDigit (hdigits c hc)).1 hnumber'
  obtain rfl := (map_toUpper_eq_iff fun c hc => isAlpha_of_isBlank (hgap c hc)).1 hgap'
  have hnamed : unit = [] ∧ power = 0 ∨ unitNames[power]? = some (unit.map Char.toUpper) := by
    rw [hunit]
    exact hname.imp_left fun h => ⟨List.map_eq_nil_iff.1 (hunit.trans h.1), h.2⟩
  refine ⟨⟨before ++ lead', number', gap', unit, after, power,
    List.forall_mem_append.2 ⟨hbefore, hlead⟩, hgap, hafter, hdigits, hne, hnamed⟩, ?_, rfl, rfl⟩
  rw [htext, hcore]
  simp [Spelling.text]

theorem trim_eq_nil_iff : (upper (trim text)).toList = [] ↔ ∀ c ∈ text.toList, isBlank c := by
  rw [upper, String.toList_ofList, upper_eq_iff (by simp), List.map_eq_nil_iff]
  constructor
  · intro hcore
    obtain ⟨before, after, hbefore, hafter, htext⟩ := Text.exists_toList_trim text
    rw [htext, hcore]
    exact List.forall_mem_append.2 ⟨hbefore, hafter⟩
  · intro hblank
    rw [trim, List.dropWhile_eq_nil_iff.2 hblank, String.toList_ofList]
    rfl

theorem parse_of_blank (h : ∀ c ∈ text.toList, isBlank c) : parse text = .ok 0 := by
  rw [parse, trim_eq_nil_iff.2 h]
  rfl

theorem Spelling.not_blank {s : Spelling} (h : text.toList = s.text) :
    ¬ ∀ c ∈ text.toList, isBlank c := by
  intro hblank
  obtain ⟨c, hc⟩ := List.exists_mem_of_ne_nil _ s.number_ne_nil
  have htext : c ∈ text.toList := by simp [h, Spelling.text, hc]
  have hdigit := not_isBlank_of_isDigit (s.number_digits c hc)
  rw [hblank c htext] at hdigit
  cases hdigit

theorem parse_of_not_blank {number : List Char} {factor : ℕ}
    (hblank : ¬ ∀ c ∈ text.toList, isBlank c)
    (h : splitUnit (upper (trim text)).toList = (number, factor)) :
    parse text = if number.isEmpty || !number.all isDigit then .error (.malformed text)
      else ((readNat number).mapError .tooManyDigits).map (· * factor) := by
  have hne : (upper (trim text)).toList.isEmpty = false := by
    rw [List.isEmpty_eq_false_iff]
    exact mt trim_eq_nil_iff.1 hblank
  simp only [parse, hne, h, Bool.false_eq_true, if_false]
  split
  · rfl
  · cases readNat number <;> rfl

section

variable {s : Spelling} (h : text.toList = s.text)

include h

theorem parse_of_spelling :
    parse text = ((readNat s.number).mapError .tooManyDigits).map (· * 1024 ^ s.power) := by
  have hdigits : s.number.all isDigit := List.all_eq_true.2 s.number_digits
  rw [parse_of_not_blank (Spelling.not_blank h) (Spelling.splitUnit_eq h), if_neg]
  simp [s.number_ne_nil, hdigits]

theorem parse_of_readable (hlength : s.number.length ≤ maxDigits) : parse text = .ok s.bytes := by
  rw [parse_of_spelling h, readNat, if_pos hlength]
  rfl

theorem parse_of_too_long (hlength : maxDigits < s.number.length) :
    parse text = .error (.tooManyDigits (.reading s.number.length)) := by
  rw [parse_of_spelling h, readNat, if_neg (Nat.not_le.2 hlength)]
  rfl

end

theorem parse_of_not_spelled (hblank : ¬ ∀ c ∈ text.toList, isBlank c)
    (h : ∀ s : Spelling, text.toList ≠ s.text) : parse text = .error (.malformed text) := by
  cases hsplit : splitUnit (upper (trim text)).toList with
  | mk number factor =>
      rw [parse_of_not_blank hblank hsplit, if_pos]
      by_contra hnumber
      rw [Bool.or_eq_true, not_or, List.isEmpty_iff, Bool.not_eq_true', Bool.not_eq_false,
        List.all_eq_true] at hnumber
      obtain ⟨s, hs, -⟩ := exists_spelling hsplit hnumber.1 hnumber.2
      exact h s hs

theorem blank_or_spelled (text : String) : (∀ c ∈ text.toList, isBlank c) ∨
    (∃ s : Spelling, text.toList = s.text ∧ s.number.length ≤ maxDigits) ∨
    (∃ s : Spelling, text.toList = s.text ∧ maxDigits < s.number.length) ∨
    (¬ ∀ c ∈ text.toList, isBlank c) ∧ ∀ s : Spelling, text.toList ≠ s.text := by
  by_cases hblank : ∀ c ∈ text.toList, isBlank c
  · exact .inl hblank
  by_cases hspelled : ∃ s : Spelling, text.toList = s.text
  · obtain ⟨s, hs⟩ := hspelled
    obtain hlength | hlength := le_or_gt s.number.length maxDigits
    · exact .inr (.inl ⟨s, hs, hlength⟩)
    · exact .inr (.inr (.inl ⟨s, hs, hlength⟩))
  · exact .inr (.inr (.inr ⟨hblank, not_exists.1 hspelled⟩))

end Spelled

/-- A text is read as zero if it is blank and as the bytes it spells if it is a size. All others are
errors: sizes of which the number has too many digits, and texts that are no sizes. -/
theorem parse_eq_iff_spelled (text : String) :
    (∀ n, parse text = .ok n ↔ (∀ c ∈ text.toList, isBlank c) ∧ n = 0 ∨
      ∃ s : Spelling, text.toList = s.text ∧ s.number.length ≤ maxDigits ∧ n = s.bytes) ∧
    (∀ e, parse text = .error e ↔
      (∃ s : Spelling, text.toList = s.text ∧ maxDigits < s.number.length ∧
        e = .tooManyDigits (.reading s.number.length)) ∨
      (¬ ∀ c ∈ text.toList, isBlank c) ∧ (∀ s : Spelling, text.toList ≠ s.text) ∧
        e = .malformed text) := by
  refine ⟨fun n => ⟨fun h => ?_, ?_⟩, fun e => ⟨fun h => ?_, ?_⟩⟩
  · obtain hblank | ⟨s, hs, hlength⟩ | ⟨s, hs, hlength⟩ | ⟨hblank, hspelled⟩ :=
      blank_or_spelled text
    · rw [parse_of_blank hblank] at h
      exact .inl ⟨hblank, (Except.ok.inj h).symm⟩
    · rw [parse_of_readable hs hlength] at h
      exact .inr ⟨s, hs, hlength, (Except.ok.inj h).symm⟩
    · rw [parse_of_too_long hs hlength] at h
      cases h
    · rw [parse_of_not_spelled hblank hspelled] at h
      cases h
  · rintro (⟨hblank, rfl⟩ | ⟨s, hs, hlength, rfl⟩)
    · exact parse_of_blank hblank
    · exact parse_of_readable hs hlength
  · obtain hblank | ⟨s, hs, hlength⟩ | ⟨s, hs, hlength⟩ | ⟨hblank, hspelled⟩ :=
      blank_or_spelled text
    · rw [parse_of_blank hblank] at h
      cases h
    · rw [parse_of_readable hs hlength] at h
      cases h
    · rw [parse_of_too_long hs hlength] at h
      exact .inl ⟨s, hs, hlength, (Except.error.inj h).symm⟩
    · rw [parse_of_not_spelled hblank hspelled] at h
      exact .inr ⟨hblank, hspelled, (Except.error.inj h).symm⟩
  · rintro (⟨s, hs, hlength, rfl⟩ | ⟨hblank, hspelled, rfl⟩)
    · exact parse_of_too_long hs hlength
    · exact parse_of_not_spelled hblank hspelled

end TypedConfig.FileSize
