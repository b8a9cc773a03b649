import TypedConfig.Proofs.Go.Qualifier

namespace TypedConfig.Go

open Text (hex hexDigit)

theorem qualifiers_quoted {cs : List Char} (h : ∀ c ∈ cs, c ≠ '"' ∧ c ≠ '\\') (rest : List Char) :
    qualifiers .quoted (cs ++ rest) = qualifiers .quoted rest := by
  induction cs with
  | nil => rfl
  | cons c cs ih =>
      obtain ⟨hc, hcs⟩ := List.forall_mem_cons.1 h
      simp only [List.cons_append, qualifiers, Place.qualifier?, Place.next, hc.1, hc.2, if_false,
        Option.toList_none, List.nil_append]
      exact ih hcs

theorem isNameChar_hexDigit (n : Nat) (h : n < 16) : isNameChar (hexDigit n) := by
  revert n
  decide

theorem isNameChar_of_hex (count n : Nat) : ∀ c ∈ hex count n, isNameChar c := by
  induction count generalizing n with
  | zero => simp [hex]
  | succ count ih =>
      intro c hc
      rw [hex, List.mem_append, List.mem_singleton] at hc
      obtain hc | rfl := hc
      · exact ih (n / 16) c hc
      · exact isNameChar_hexDigit _ (Nat.mod_lt _ (by decide))

theorem qualifiers_quoted_hex (count n : Nat) (rest : List Char) :
    qualifiers .quoted (hex count n ++ rest) = qualifiers .quoted rest := by
  refine qualifiers_quoted (fun c hc => ⟨?_, ?_⟩) rest
  · rintro rfl
    exact absurd (isNameChar_of_hex count n _ hc) (by decide)
  · rintro rfl
    exact absurd (isNameChar_of_hex count n _ hc) (by decide)

theorem qualifiers_escape (c : Char) (rest : List Char) :
    qualifiers .quoted (quoteStyle.escape c ++ rest) = qualifiers .quoted rest := by
  unfold Text.QuoteStyle.escape
  split
  · rfl
  · rename_i hlookup
    split
    · refine qualifiers_quoted (fun c' hc' => ?_) rest
      rw [List.mem_singleton.1 hc']
      constructor
      · rintro rfl
        exact absurd hlookup (by decide)
      · rintro rfl
        exact absurd hlookup (by decide)
    · split
      · exact qualifiers_quoted_hex 2 _ rest
      · split
        · exact qualifiers_quoted_hex 4 _ rest
        · exact qualifiers_quoted_hex 8 _ rest

theorem refersWhole_quote (s : String) : RefersWhole (quote s) [] := by
  refine refersWhole_of_read fun rest => ?_
  have hall (cs rest : List Char) :
      qualifiers .quoted (quoteStyle.escapeAll cs ++ rest) = qualifiers .quoted rest := by
    induction cs with
    | nil => rfl
    | cons c cs ih =>
        rw [Text.QuoteStyle.escapeAll, List.flatMap_cons, List.append_assoc, qualifiers_escape]
        exact ih
  rw [quote, String.toList_ofList, quoteChars, List.append_assoc, List.cons_append,
    qualifiers_quote, hall]
  rfl

def isNumberChar (c : Char) : Bool :=
  c.isDigit || c == '.' || c == '-' || c == '+' || c == 'e'

/-- Every name of a package has a letter that no number has. -/
theorem not_name_of_number {word : List Char} (h : ∀ c ∈ word, isNumberChar c) (p : Package) :
    p.name.toList ≠ word := by
  rintro rfl
  cases p with
  | math | time => exact absurd (h 'm' (by decide)) (by decide)
  | os | strconv => exact absurd (h 's' (by decide)) (by decide)

theorem qualifiers_number {cs : List Char} (hcs : ∀ c ∈ cs, isNumberChar c) {word : List Char}
    (hword : ∀ c ∈ word, isNumberChar c) (p : Package) {c : Char} (hc : IsSeparator c)
    (rest : List Char) :
    p.name.toList ∈ qualifiers (.code word) (cs ++ c :: rest) ↔
      p.name.toList ∈ qualifiers (.code []) rest := by
  induction cs generalizing word with
  | nil => rw [List.nil_append, qualifiers_separator hc]
  | cons d cs ih =>
      obtain ⟨hd, hcs⟩ := List.forall_mem_cons.1 hcs
      have hquote : d ≠ '"' := by
        rintro rfl
        exact absurd hd (by decide)
      have hnone : p.name.toList ∉ ((Place.code word).qualifier? d).toList := by
        simp only [Place.qualifier?]
        split
        · simpa using not_name_of_number hword p
        · simp
      rw [List.cons_append, qualifiers, List.mem_append, or_iff_right hnone, Place.next,
        if_neg hquote]
      split
      · refine ih hcs fun c' hc' => ?_
        obtain hc' | hc' := List.mem_append.1 hc'
        · exact hword c' hc'
        · rwa [List.mem_singleton.1 hc']
      · exact ih hcs (by simp)

theorem refers_of_number {s : String} (h : ∀ c ∈ s.toList, isNumberChar c) : Refers s [] := by
  intro p c rest hc
  rw [qualifiers_number h (by simp) p hc]
  simp

theorem isNumberChar_of_numeral (n : Nat) : ∀ c ∈ Decimal.numeral n, isNumberChar c := by
  intro c hc
  rw [isNumberChar, Nat.isDigit_of_mem_toDigits (by decide) (by decide) hc]
  rfl

theorem refers_toString (n : Int) : Refers (toString n) [] := by
  refine refers_of_number fun c hc => ?_
  rw [Int.toString_eq_repr, Int.repr_eq_if] at hc
  split at hc
  · rw [Nat.toList_repr] at hc
    exact isNumberChar_of_numeral _ c hc
  · rw [String.toList_append, Nat.toList_repr] at hc
    obtain hc | hc := List.mem_append.1 hc
    · rw [show c = '-' by simpa using hc]
      rfl
    · exact isNumberChar_of_numeral _ c hc

section Floats

open Binary64

theorem isNumberChar_of_replicate (n : Nat) : ∀ c ∈ List.replicate n '0', isNumberChar c := by
  intro c hc
  rw [List.eq_of_mem_replicate hc]
  rfl

theorem isNumberChar_of_significantDigits (n : Nat) :
    ∀ c ∈ significantDigits n, isNumberChar c := by
  intro c hc
  unfold significantDigits at hc
  split at hc
  · rw [List.mem_singleton.1 hc]
    rfl
  · refine isNumberChar_of_numeral n c ?_
    exact List.mem_reverse.1 ((List.dropWhile_sublist _).subset (List.mem_reverse.1 hc))

variable {digits : List Char} (hdigits : ∀ c ∈ digits, isNumberChar c) (exponent : Int)

include hdigits

theorem isNumberChar_of_positional : ∀ c ∈ positional digits exponent, isNumberChar c := by
  have htake (n : Nat) (c : Char) (hc : c ∈ digits.take n) : isNumberChar c :=
    hdigits c (List.mem_of_mem_take hc)
  have hdrop (n : Nat) (c : Char) (hc : c ∈ digits.drop n) : isNumberChar c :=
    hdigits c (List.mem_of_mem_drop hc)
  intro c hc
  unfold positional at hc
  split at hc
  · simp only [List.cons_append, List.mem_cons, List.mem_append] at hc
    obtain rfl | rfl | hc | hc := hc
    · rfl
    · rfl
    · exact isNumberChar_of_replicate _ c hc
    · exact hdigits c hc
  · dsimp only at hc
    split at hc
    · simp only [List.mem_append, List.mem_cons, List.not_mem_nil, or_false] at hc
      obtain (hc | hc) | rfl | rfl := hc
      · exact htake _ c hc
      · exact isNumberChar_of_replicate _ c hc
      · rfl
      · rfl
    · simp only [List.mem_append, List.mem_cons] at hc
      obtain (hc | hc) | rfl | hc := hc
      · exact htake _ c hc
      · exact isNumberChar_of_replicate _ c hc
      · rfl
      · exact hdrop _ c hc

theorem isNumberChar_of_scientific (width : Nat) :
    ∀ c ∈ scientific width digits exponent, isNumberChar c := by
  intro c hc
  unfold scientific padLeft at hc
  simp only [List.mem_append, List.mem_cons] at hc
  obtain hc | rfl | rfl | hc | hc := hc
  · split at hc
    · cases hc
    · exact hdigits c hc
    · obtain rfl | rfl | hc := by simpa only [List.mem_cons] using hc
      · exact hdigits _ (List.mem_cons_self ..)
      · rfl
      · exact hdigits c (List.mem_cons_of_mem _ hc)
  · rfl
  · split <;> rfl
  · exact isNumberChar_of_replicate _ c hc
  · exact isNumberChar_of_numeral _ c hc

omit hdigits

theorem isNumberChar_of_finite (layout : Layout) (x : Finite) :
    ∀ c ∈ layout.finite x, isNumberChar c := by
  have hbody (digits : List Char) (hdigits : ∀ c ∈ digits, isNumberChar c) (exponent : Int) :
      ∀ c ∈ if layout.low ≤ exponent && exponent ≤ layout.high then positional digits exponent
        else scientific layout.exponentDigits digits exponent, isNumberChar c := by
    split
    · exact isNumberChar_of_positional hdigits exponent
    · exact isNumberChar_of_scientific hdigits exponent _
  intro c hc
  unfold Layout.finite at hc
  dsimp only at hc
  split at hc
  · obtain rfl | hc := List.mem_cons.1 hc
    · rfl
    · exact hbody _ (isNumberChar_of_significantDigits _) _ c hc
  · exact hbody _ (isNumberChar_of_significantDigits _) _ c hc

theorem refers_floatText (x : Finite) : Refers (floatText (.finite x)) [] := by
  refine refers_of_number fun c hc => isNumberChar_of_finite plainLayout x c ?_
  simp only [floatText, Binary64.text, finiteText, String.toList_ofList] at hc
  split at hc
  · rw [String.toList_ofList] at hc
    exact List.mem_of_mem_take hc
  · rwa [String.toList_ofList] at hc

end Floats

theorem decompose_ne_nil {us : List Duration.Unit} (hus : .nanosecond ∈ us) {n : Int}
    (hn : n ≠ 0) : Duration.decompose us n ≠ [] := by
  induction us generalizing n with
  | nil => cases hus
  | cons u us ih =>
      intro hnil
      rw [Duration.decompose] at hnil
      split at hnil
      · next hcount =>
        have hrest : n % u.nanoseconds = n := by
          have h := Int.emod_add_mul_ediv n u.nanoseconds
          rwa [hcount, Int.mul_zero, Int.add_zero] at h
        rw [hrest] at hnil
        obtain rfl | hus := List.mem_cons.1 hus
        · exact hn (by simpa [Duration.Unit.nanoseconds] using hcount)
        · exact ih hus hn hnil
      · cases hnil

theorem refers_part (part : Duration.Part) : Refers part.text [.time] := by
  have hconst : Refers part.unit.constant [.time] := by
    cases part.unit <;> exact refers_of_read fun _ => ⟨_, rfl⟩
  have hcount : RefersWhole (toString part.count ++ "*") [] :=
    (refers_toString part.count).append_separates (by decide) (by decide)
  exact hcount.append_refers hconst

theorem refers_parts {n : Int} (hn : n ≠ 0) :
    Refers (" + ".intercalate ((Duration.parts n).map Duration.Part.text)) [.time] := by
  have h := refers_intercalate " + " (by decide) (by decide) Duration.Part.text
    (fun _ => [.time]) (Duration.parts n) [] (fun part _ => refers_part part)
    refersWhole_empty.refers
  rw [List.append_nil] at h
  have hunit : .nanosecond ∈ Duration.units := by decide
  obtain ⟨part, hpart⟩ := List.exists_mem_of_ne_nil _ (decompose_ne_nil hunit hn)
  refine h.congr fun p => ?_
  rw [List.mem_flatMap]
  exact ⟨fun ⟨_, _, hp⟩ => hp, fun hp => ⟨part, hpart, hp⟩⟩

theorem refers_duration {n : Int} (hn : n ≠ 0) : Refers (Duration.literal n) [.time] := by
  have hsum := refers_parts (Int.natCast_ne_zero.2 (Int.natAbs_ne_zero.2 hn))
  rw [Duration.literal, if_neg hn]
  dsimp only
  split
  · have hopen : Separates "-(" := by decide
    exact ((hopen.append_refers hsum).append_separates (by decide) (by decide)).refers
  · exact hsum

theorem isName_byteText (b : UInt8) : IsName (byteText b) := by
  intro c hc
  rw [byteText, String.toList_append] at hc
  obtain hc | hc := List.mem_append.1 hc
  · have hzero : IsName "0x" := by decide
    exact hzero c hc
  · rw [String.toList_ofList] at hc
    exact isNameChar_of_hex 2 _ c hc

theorem separates_tabs (depth : Int) : Separates (tabs depth) := by
  intro c hc
  rw [tabs, String.toList_ofList] at hc
  rw [List.eq_of_mem_replicate hc]
  decide

theorem refersWhole_rowText (depth : Int) (row : List UInt8) :
    RefersWhole (rowText depth row) [] := by
  have h := refers_intercalate ", " (by decide) (by decide) byteText (fun _ => []) row []
    (fun b _ => (isName_byteText b).refers) refersWhole_empty.refers
  rw [List.append_nil, List.flatMap_eq_nil_iff.2 fun _ _ => rfl] at h
  exact ((separates_tabs depth).append_refers h).append_separates (by decide) (by decide)

theorem refersWhole_bytesText (data : List UInt8) (depth : Int) :
    RefersWhole (bytesText data depth) [] := by
  unfold bytesText
  split
  · exact refersWhole_of_read fun _ => rfl
  · have hopen : RefersWhole "[]byte\x7b\n" [] := refersWhole_of_read fun _ => rfl
    have h := refers_intercalate "\n" (by decide) (by decide) (rowText (depth + 1))
      (fun _ => []) (rows bytesPerRow data) [] (fun row _ => (refersWhole_rowText _ row).refers)
      refersWhole_empty.refers
    rw [List.append_nil, List.flatMap_eq_nil_iff.2 fun _ _ => rfl] at h
    have hrows := (hopen.append_refers h).append_separates (t := "\n") (by decide) (by decide)
    exact (hrows.append_separates (separates_tabs depth)).append_separates (by decide)

end TypedConfig.Go
