import TypedConfig.Proofs.Go.Elements

namespace TypedConfig.Go

section Rows

variable {α : Type} {size : Nat}

theorem length_rows (hsize : 0 < size) (xs : List α) :
    (rows size xs).length = (xs.length + (size - 1)) / size := by
  induction xs using rows_induction hsize with
  | nil =>
      have hnone : (0 + (size - 1)) / size = 0 := Nat.div_eq_of_lt (by omega)
      rw [rows_nil, List.length_nil, List.length_nil, hnone]
  | cut xs hxs ih =>
      have hpos := List.length_pos_iff.2 hxs
      rw [rows_of_ne_nil hsize hxs, List.length_cons, ih, List.length_drop]
      by_cases hshort : xs.length ≤ size
      · have hone : xs.length + (size - 1) = size + (xs.length - 1) := by omega
        rw [Nat.sub_eq_zero_of_le hshort, Nat.zero_add, Nat.div_eq_of_lt (by omega), hone,
          Nat.add_div_left _ hsize, Nat.div_eq_of_lt (by omega)]
      · have hmore : xs.length + (size - 1) = xs.length - size + (size - 1) + size := by omega
        rw [hmore, Nat.add_div_right _ hsize]

theorem length_le_of_mem_rows (hsize : 0 < size) (xs : List α) :
    ∀ row ∈ rows size xs, row.length ≤ size := by
  induction xs using rows_induction hsize with
  | nil => simp [rows_nil]
  | cut xs hxs ih =>
      rw [rows_of_ne_nil hsize hxs, List.forall_mem_cons]
      exact ⟨List.length_take_le _ _, ih⟩

theorem length_of_mem_dropLast_rows (hsize : 0 < size) (xs : List α) :
    ∀ row ∈ (rows size xs).dropLast, row.length = size := by
  induction xs using rows_induction hsize with
  | nil => simp [rows_nil]
  | cut xs hxs ih =>
      rw [rows_of_ne_nil hsize hxs]
      by_cases hrest : xs.drop size = []
      · simp [hrest, rows_nil]
      · have hlong : size < xs.length := by simpa using hrest
        have hmore : rows size (xs.drop size) ≠ [] := by
          rw [rows_of_ne_nil hsize hrest]
          simp
        rw [List.dropLast_cons_of_ne_nil hmore, List.forall_mem_cons]
        exact ⟨List.length_take_of_le hlong.le, ih⟩

end Rows

/-- The bytes that stand in a text as `0x` and two digits, in order. -/
def numbers : List Char → List UInt8
  | [] => []
  | c :: rest => ((readByte (c :: rest)).map Prod.fst).toList ++ numbers rest

theorem numbers_cons_of_ne {c : Char} (hc : c ≠ '0') (rest : List Char) :
    numbers (c :: rest) = numbers rest := by
  rw [numbers]
  have hnone : readByte (c :: rest) = none := by
    unfold readByte
    split
    · next heq => exact absurd (List.cons.inj heq).1 hc
    · rfl
  rw [hnone]
  rfl

theorem numbers_cons_cons_of_ne (c : Char) {d : Char} (hd : d ≠ 'x') (rest : List Char) :
    numbers (c :: d :: rest) = numbers (d :: rest) := by
  have hnone : readByte (c :: d :: rest) = none := by
    unfold readByte
    split
    · next heq => exact absurd (List.cons.inj (List.cons.inj heq).2).1 hd
    · rfl
  rw [numbers, hnone]
  rfl

theorem numbers_append_of_not_mem {text : List Char} (htext : '0' ∉ text) (rest : List Char) :
    numbers (text ++ rest) = numbers rest := by
  induction text with
  | nil => rfl
  | cons c text ih =>
      obtain ⟨hc, htext⟩ := not_or.1 (mt List.mem_cons.2 htext)
      rw [List.cons_append, numbers_cons_of_ne (Ne.symm hc), ih htext]

theorem numbers_of_not_mem {text : List Char} (htext : '0' ∉ text) : numbers text = [] := by
  rw [← List.append_nil text, numbers_append_of_not_mem htext, numbers]

theorem hexDigit_ne_x {n : Nat} (h : n < 16) : Text.hexDigit n ≠ 'x' := by
  revert n
  decide

/-- The digits of a byte do not run into what follows them. -/
theorem numbers_byteText (b : UInt8) (rest : List Char) :
    numbers ((byteText b).toList ++ ',' :: rest) = b :: numbers rest := by
  have hread : readByte ((byteText b).toList ++ ',' :: rest) = some (b, ',' :: rest) :=
    (reads_byte b).read_append (by rintro _ ⟨⟩; exact .inl rfl)
  have htext : (byteText b).toList =
      ['0', 'x', Text.hexDigit (b.toNat / 16 % 16), Text.hexDigit (b.toNat % 16)] := by
    simp [byteText, Text.hex]
  have hlast : Text.hexDigit (b.toNat % 16) ≠ 'x' := hexDigit_ne_x (Nat.mod_lt _ (by decide))
  rw [htext] at hread ⊢
  simp only [List.cons_append, List.nil_append] at hread ⊢
  rw [numbers, hread, numbers_cons_of_ne (by decide), numbers_cons_cons_of_ne _ hlast,
    numbers_cons_cons_of_ne _ (by decide), numbers_cons_of_ne (by decide)]
  rfl

theorem numbers_intercalate {row : List UInt8} (hrow : row ≠ []) (rest : List Char) :
    numbers (", ".toList.intercalate (row.map fun b => (byteText b).toList) ++ ',' :: rest) =
      row ++ numbers rest := by
  induction row with
  | nil => exact absurd rfl hrow
  | cons b row ih =>
      cases row with
      | nil =>
          rw [List.map_singleton, List.intercalate_singleton, numbers_byteText]
          rfl
      | cons c row =>
          have hblank := numbers_cons_of_ne (c := ' ') (by decide)
          rw [List.map_cons, List.map_cons, List.intercalate_cons_cons, List.append_assoc,
            List.append_assoc]
          exact (numbers_byteText b _).trans
            (congrArg (b :: ·) ((hblank _).trans (ih (List.cons_ne_nil c row))))

theorem zero_not_mem_tabs (depth : Int) : '0' ∉ (tabs depth).toList := by
  rw [tabs, String.toList_ofList]
  exact fun h => absurd (List.eq_of_mem_replicate h) (by decide)

theorem numbers_rowText (depth : Int) {row : List UInt8} (hrow : row ≠ []) (rest : List Char) :
    numbers ((rowText depth row).toList ++ rest) = row ++ numbers rest := by
  rw [rowText_eq, List.append_assoc, List.append_assoc,
    numbers_append_of_not_mem (zero_not_mem_tabs depth)]
  exact numbers_intercalate hrow rest

theorem numbers_rows (depth : Int) {table : List (List UInt8)} (htable : ∀ row ∈ table, row ≠ [])
    (rest : List Char) :
    numbers (table.flatMap (fun row => '\n' :: (rowText depth row).toList) ++ rest) =
      table.flatten ++ numbers rest := by
  induction table with
  | nil => rfl
  | cons row table ih =>
      obtain ⟨hrow, htable⟩ := List.forall_mem_cons.1 htable
      rw [List.flatMap_cons, List.cons_append, List.cons_append,
        numbers_cons_of_ne (by decide), List.append_assoc, numbers_rowText depth hrow, ih htable,
        List.flatten_cons, List.append_assoc]

theorem numbers_bytesText (data : List UInt8) (depth : Int) (rest : List Char) :
    numbers ((bytesText data depth).toList ++ rest) = data ++ numbers rest := by
  by_cases hdata : data = []
  · subst hdata
    have hnone : '0' ∉ "[]byte\x7b\x7d".toList := by decide
    exact numbers_append_of_not_mem hnone rest
  · have hpos : 0 < bytesPerRow := by decide
    have hclosing : numbers ('\n' :: (tabs depth).toList ++ ['}'] ++ rest) = numbers rest := by
      rw [List.append_assoc, List.cons_append, numbers_cons_of_ne (by decide),
        numbers_append_of_not_mem (zero_not_mem_tabs depth), List.singleton_append,
        numbers_cons_of_ne (by decide)]
    have hopening : '0' ∉ opening "byte" := by decide
    rw [bytesText_eq hdata, List.append_assoc, numbers_append_of_not_mem hopening,
      List.append_assoc, numbers_rows _ (ne_nil_of_mem_rows hpos data), flatten_rows hpos, hclosing]

def valueLine (depth : Int) (row : List UInt8) : String :=
  tabs depth ++ " ".intercalate (row.map fun b => byteText b ++ ",")

theorem intercalate_comma {texts : List (List Char)} (htexts : texts ≠ []) :
    ", ".toList.intercalate texts ++ [','] = [' '].intercalate (texts.map (· ++ [','])) := by
  induction texts with
  | nil => exact absurd rfl htexts
  | cons text texts ih =>
      cases texts with
      | nil => simp
      | cons other texts =>
          have hmore := ih (List.cons_ne_nil other texts)
          rw [List.intercalate_cons_cons, List.append_assoc, hmore]
          simp [List.intercalate_cons_cons]

theorem rowText_eq_valueLine (depth : Int) {row : List UInt8} (hrow : row ≠ []) :
    rowText depth row = valueLine depth row := by
  have htexts : (row.map fun b => (byteText b).toList) ≠ [] := by simpa using hrow
  have hvalues := intercalate_comma htexts
  refine String.ext ?_
  rw [rowText_eq, hvalues, valueLine]
  simp [String.toList_intercalate, Function.comp_def]

/-- The text of bytes over several lines: rows of twelve values, of which the last may be
shorter. -/
structure LaidOut (text : String) (depth : Int) (data : List UInt8)
    (table : List (List UInt8)) : Prop where
  lines : text = "\n".intercalate
    ("[]byte\x7b" :: table.map (valueLine (depth + 1)) ++ [tabs depth ++ "\x7d"])
  flatten : table.flatten = data
  length : table.length = (data.length + 11) / 12
  full : ∀ row ∈ table.dropLast, row.length = 12
  filled : ∀ row ∈ table, 1 ≤ row.length ∧ row.length ≤ 12

theorem intercalate_concat (separator : String) {lines : List String} (hlines : lines ≠ [])
    (last : String) : separator.intercalate (lines ++ [last]) =
      separator.intercalate lines ++ separator ++ last := by
  induction lines with
  | nil => exact absurd rfl hlines
  | cons line lines ih =>
      cases lines with
      | nil => simp
      | cons other lines =>
          have hmore := ih (List.cons_ne_nil other lines)
          rw [List.cons_append, List.cons_append, String.intercalate_cons_cons, ← List.cons_append,
            hmore, String.intercalate_cons_cons]
          simp [String.append_assoc]

theorem laidOut_rows {data : List UInt8} (hdata : data ≠ []) (depth : Int) :
    LaidOut (bytesText data depth) depth data (rows bytesPerRow data) where
  lines := by
    have hlines : (rows bytesPerRow data).map (rowText (depth + 1)) =
        (rows bytesPerRow data).map (valueLine (depth + 1)) :=
      List.map_congr_left fun row hrow =>
        rowText_eq_valueLine _ (ne_nil_of_mem_rows (by decide) data row hrow)
    have hrows : (rows bytesPerRow data).map (rowText (depth + 1)) ≠ [] := by
      rw [rows_of_ne_nil (by decide) hdata]
      simp
    obtain ⟨first, more, hmore⟩ := List.exists_cons_of_ne_nil hrows
    rw [bytesText, if_neg (by simpa using hdata), ← hlines, intercalate_concat _ (by simp), hmore,
      String.intercalate_cons_cons]
    simp [String.append_assoc]
  flatten := flatten_rows (by decide) data
  length := length_rows (by decide) data
  full := length_of_mem_dropLast_rows (by decide) data
  filled row hrow := ⟨List.length_pos_iff.2 (ne_nil_of_mem_rows (by decide) data row hrow),
    length_le_of_mem_rows (by decide) data row hrow⟩

/-- The two-digit numbers of embedded bytes are the bytes. No bytes take one line, and others rows
of twelve, each one tab deeper than the brace that closes them. -/
theorem bytesText_layout (data : List UInt8) (depth : Int) :
    numbers (bytesText data depth).toList = data ∧
      if data = [] then bytesText data depth = "[]byte\x7b\x7d"
      else ∃ table, LaidOut (bytesText data depth) depth data table := by
  refine ⟨by simpa [numbers] using numbers_bytesText data depth [], ?_⟩
  split
  · next hdata =>
    subst hdata
    rfl
  · next hdata => exact ⟨_, laidOut_rows hdata depth⟩

end TypedConfig.Go
