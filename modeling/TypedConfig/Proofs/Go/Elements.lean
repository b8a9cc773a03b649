import TypedConfig.Go.Literal
import TypedConfig.Proofs.Duration.Grammar
import TypedConfig.Proofs.Go.Qualifier
import TypedConfig.Proofs.Go.Quoted

namespace TypedConfig.Go

abbrev TextReader (α : Type) := List Char → Option (α × List Char)

def mapReader {α β : Type} (f : α → β) (read : TextReader α) : TextReader β := fun cs =>
  (read cs).map (Prod.map f id)

def isBlank (c : Char) : Bool :=
  c == ' ' || c == '\t'

def isLayout (c : Char) : Bool :=
  isBlank c || c == '\n' || c == '\r'

section Reader

variable {α : Type} (element : TextReader α)

/-- The elements up to the closing brace, with a comma between them and perhaps behind the last. A
line may end behind a comma or the opening brace only. Each element takes a character at least, so
`fuel` may be the length of the text. -/
def readElements : Nat → TextReader (List α)
  | fuel + 1, cs =>
    match cs.dropWhile isLayout with
    | '}' :: rest => some ([], rest)
    | cs => do
      let (x, rest) ← element cs
      match rest.dropWhile isBlank with
      | '}' :: rest => some ([x], rest)
      | ',' :: rest => do
        let (xs, rest) ← readElements fuel rest
        return (x :: xs, rest)
      | _ => none
  | 0, _ => none

def opening (type : String) : List Char :=
  '[' :: ']' :: type.toList ++ ['{']

def readSlice (type : String) : TextReader (List α) := fun cs =>
  if cs.takeWhile isNameChar = "nil".toList then some ([], cs.dropWhile isNameChar)
  else do
    let rest ← cs.dropPrefix? (opening type)
    readElements element rest.length rest

end Reader

def readByte : TextReader UInt8
  | '0' :: 'x' :: rest => (readHex 2 rest).map fun (n, rest) => (UInt8.ofNat n, rest)
  | _ => none

def EndsElement (rest : List Char) : Prop :=
  ∀ c ∈ rest.head?, c = ',' ∨ c = '}'

/-- The text is that of an element, and it is read whole wherever an element may end. -/
structure Reads {α : Type} (read : TextReader α) (text : List Char) (x : α) : Prop where
  starts : ∃ c ∈ text.head?, isLayout c = false ∧ c ≠ '}'
  read_append : ∀ {rest}, EndsElement rest → read (text ++ rest) = some (x, rest)

/-- The text lists these elements up to the closing brace. -/
inductive Listing {α : Type} (read : TextReader α) : List Char → List α → Prop
  | close {gap : List Char} (hgap : ∀ c ∈ gap, isLayout c) : Listing read (gap ++ ['}']) []
  | last {gap text : List Char} {x : α} (hgap : ∀ c ∈ gap, isLayout c) (h : Reads read text x) :
      Listing read (gap ++ (text ++ ['}'])) [x]
  | next {gap text more : List Char} {x : α} {xs : List α} (hgap : ∀ c ∈ gap, isLayout c)
      (h : Reads read text x) (hmore : Listing read more xs) :
      Listing read (gap ++ (text ++ ',' :: more)) (x :: xs)

section Listings

variable {α β : Type} {read : TextReader α} {text gap more rest : List Char} {x : α}
  {xs ys : List α} {texts : List (List Char)} {fuel : Nat}

theorem Reads.map (h : Reads read text x) (f : α → β) : Reads (mapReader f read) text (f x) where
  starts := h.starts
  read_append hrest := by
    rw [mapReader, h.read_append hrest]
    rfl

theorem Reads.ne_nil (h : Reads read text x) : text ≠ [] := by
  rintro rfl
  obtain ⟨c, hc, -⟩ := h.starts
  cases hc

/-- Layout in front of an element is dropped, and nothing of the element is. -/
theorem Reads.dropWhile (h : Reads read text x) (hgap : ∀ c ∈ gap, isLayout c)
    (rest : List Char) : (gap ++ (text ++ rest)).dropWhile isLayout = text ++ rest := by
  obtain ⟨c, hc, hlayout, -⟩ := h.starts
  rw [List.dropWhile_append_of_pos hgap]
  cases text with
  | nil => cases hc
  | cons d text =>
      obtain rfl := Option.some.inj hc
      exact List.dropWhile_cons_of_neg (by simp [hlayout])

theorem Reads.ne_brace (h : Reads read text x) (rest more : List Char) :
    text ++ rest ≠ '}' :: more := by
  obtain ⟨c, hc, -, hbrace⟩ := h.starts
  cases text with
  | nil => cases hc
  | cons d text =>
      obtain rfl := Option.some.inj hc
      exact fun heq => hbrace (List.cons.inj heq).1

theorem readElements_eq (h : Reads read text x) (hgap : ∀ c ∈ gap, isLayout c)
    (hrest : EndsElement rest) : readElements read (fuel + 1) (gap ++ (text ++ rest)) =
      match rest.dropWhile isBlank with
      | '}' :: rest => some ([x], rest)
      | ',' :: rest => do
        let (xs, rest) ← readElements read fuel rest
        return (x :: xs, rest)
      | _ => none := by
  rw [readElements, h.dropWhile hgap]
  split
  · next heq => exact absurd heq (h.ne_brace _ _)
  · rw [h.read_append hrest]
    rfl

theorem readElements_last (h : Reads read text x) (hgap : ∀ c ∈ gap, isLayout c) :
    readElements read (fuel + 1) (gap ++ (text ++ '}' :: rest)) = some ([x], rest) := by
  rw [readElements_eq h hgap (by rintro _ ⟨⟩; exact .inr rfl)]
  rfl

theorem readElements_next (h : Reads read text x) (hgap : ∀ c ∈ gap, isLayout c) :
    readElements read (fuel + 1) (gap ++ (text ++ ',' :: rest)) = do
      let (xs, rest) ← readElements read fuel rest
      return (x :: xs, rest) := by
  rw [readElements_eq h hgap (by rintro _ ⟨⟩; exact .inl rfl)]
  rfl

theorem Listing.length_lt (h : Listing read text xs) : xs.length < text.length := by
  induction h with
  | close hgap => simp
  | last hgap h =>
      have htext := List.length_pos_iff.2 h.ne_nil
      simp only [List.length_append, List.length_singleton]
      omega
  | next hgap h _ ih =>
      simp only [List.length_append, List.length_cons]
      omega

/-- What is listed is read, whatever follows the closing brace. -/
theorem Listing.readElements (h : Listing read text xs) (hfuel : xs.length < fuel)
    (rest : List Char) : readElements read fuel (text ++ rest) = some (xs, rest) := by
  obtain ⟨fuel, rfl⟩ := Nat.exists_eq_add_of_le' (Nat.one_le_of_lt hfuel)
  induction h generalizing fuel with
  | close hgap =>
      rw [Go.readElements, List.append_assoc, List.dropWhile_append_of_pos hgap]
      rfl
  | last hgap h =>
      rw [List.append_assoc, List.append_assoc]
      exact readElements_last h hgap
  | next hgap h hmore ih =>
      rw [List.append_assoc, List.append_assoc, List.cons_append, readElements_next h hgap]
      obtain ⟨fuel, rfl⟩ :=
        Nat.exists_eq_add_of_le' (Nat.one_le_of_lt (Nat.lt_of_succ_lt_succ hfuel))
      rw [ih _ (Nat.lt_of_succ_lt_succ hfuel)]
      rfl

theorem dropPrefix?_opening (type : String) (rest : List Char) :
    (opening type ++ rest).dropPrefix? (opening type) = some rest :=
  List.dropPrefix?_eq_some_iff.2 ⟨opening type, rfl, BEq.rfl⟩

theorem readSlice_opening (type : String) (h : Listing read text xs) (rest : List Char) :
    readSlice read type (opening type ++ (text ++ rest)) = some (xs, rest) := by
  have hfuel : xs.length < (text ++ rest).length := by
    rw [List.length_append]
    exact Nat.lt_of_lt_of_le h.length_lt (Nat.le_add_right _ _)
  have hword : (opening type ++ (text ++ rest)).takeWhile isNameChar = [] :=
    List.takeWhile_cons_of_neg (by decide)
  rw [readSlice, hword, if_neg (by decide), dropPrefix?_opening]
  exact h.readElements hfuel rest

theorem isNameChar_of_endsElement (hrest : EndsElement rest) :
    ∀ c ∈ rest.head?, isNameChar c = false := by
  intro c hc
  obtain rfl | rfl := hrest c hc <;> rfl

theorem readSlice_nil (type : String) (hrest : EndsElement rest) :
    readSlice read type ("nil".toList ++ rest) = some ([], rest) := by
  have hname : ∀ c ∈ "nil".toList, isNameChar c := List.all_eq_true.1 rfl
  have hstop := isNameChar_of_endsElement hrest
  rw [readSlice, Text.takeWhile_append_of_stop hname hstop, if_pos rfl,
    Text.dropWhile_append_of_stop hname hstop]

/-- Elements on one line, with layout in front of the first that an earlier comma left, and with a
tail that may stand behind an element. -/
theorem listing_intercalate {tail : List Char}
    (htail : ∀ {gap text x}, (∀ c ∈ gap, isLayout c) → Reads read text x →
      Listing read (gap ++ (text ++ tail)) (x :: ys))
    (h : List.Forall₂ (Reads read) texts xs) (hne : texts ≠ []) (hgap : ∀ c ∈ gap, isLayout c) :
    Listing read (gap ++ (", ".toList.intercalate texts ++ tail)) (xs ++ ys) := by
  induction h generalizing gap with
  | nil => exact absurd rfl hne
  | cons hx hrest ih =>
      cases hrest with
      | nil =>
          rw [List.intercalate_singleton]
          exact htail hgap hx
      | cons hy hrest =>
          have hblank : ∀ c ∈ [' '], isLayout c := List.forall_mem_singleton.2 rfl
          have hmore := ih (by simp) hblank
          rw [List.intercalate_cons_cons, List.append_assoc, List.append_assoc]
          exact .next hgap hx hmore

theorem forall₂_reads {text : α → List Char} (h : ∀ x, Reads read (text x) x) (xs : List α) :
    List.Forall₂ (Reads read) (xs.map text) xs := by
  induction xs with
  | nil => exact .nil
  | cons x xs ih => exact .cons (h x) ih

end Listings

theorem reads_slice {α : Type} {read : TextReader α} (type : String) {texts : List String}
    {xs : List α} (h : List.Forall₂ (Reads read) (texts.map String.toList) xs) (hne : texts ≠ []) :
    Reads (readSlice read type)
      ("[]" ++ type ++ "\x7b" ++ ", ".intercalate texts ++ "\x7d").toList xs := by
  have htext : ("[]" ++ type ++ "\x7b" ++ ", ".intercalate texts ++ "\x7d").toList =
      opening type ++ (", ".toList.intercalate (texts.map String.toList) ++ ['}']) := by
    simp [opening, String.toList_intercalate]
  have hlisting : Listing read (", ".toList.intercalate (texts.map String.toList) ++ ['}']) xs := by
    have hgap : ∀ c ∈ [], isLayout c := nofun
    have h := listing_intercalate .last h (by simpa using hne) hgap
    rwa [List.nil_append, List.append_nil] at h
  rw [htext]
  refine ⟨⟨'[', rfl, by decide⟩, fun {rest} _ => ?_⟩
  rw [List.append_assoc]
  exact readSlice_opening type hlisting rest

theorem reads_nil {α : Type} (read : TextReader α) (type : String) :
    Reads (readSlice read type) "nil".toList [] :=
  ⟨⟨'n', rfl, by decide⟩, readSlice_nil type⟩

theorem isLayout_of_tabs (depth : Int) : ∀ c ∈ (tabs depth).toList, isLayout c := by
  intro c hc
  rw [tabs, String.toList_ofList] at hc
  rw [List.eq_of_mem_replicate hc]
  rfl

theorem reads_byte (b : UInt8) : Reads readByte (byteText b).toList b := by
  have htext : (byteText b).toList = '0' :: 'x' :: Text.hex 2 b.toNat := by
    simp [byteText]
  have hsmall : b.toNat % 16 ^ 2 = b.toNat := Nat.mod_eq_of_lt b.toNat_lt
  rw [htext]
  refine ⟨⟨'0', rfl, by decide⟩, fun {rest} _ => ?_⟩
  rw [List.cons_append, List.cons_append, readByte, readHex_hex, hsmall, Option.map_some]
  exact congrArg (fun b => some (b, rest)) UInt8.ofNat_toNat

section Rows

variable {α : Type} {size : Nat} {xs : List α}

theorem rows_of_ne_nil (hsize : 0 < size) (hxs : xs ≠ []) :
    rows size xs = xs.take size :: rows size (xs.drop size) := by
  rw [rows, dif_neg (not_or.2 ⟨hxs, hsize.ne'⟩)]

theorem rows_nil : rows size ([] : List α) = [] := by
  rw [rows, dif_pos (.inl rfl)]

theorem rows_induction {motive : List α → Prop} (hsize : 0 < size) (nil : motive [])
    (cut : ∀ xs, xs ≠ [] → motive (xs.drop size) → motive xs) (xs : List α) : motive xs := by
  induction hlength : xs.length using Nat.strong_induction_on generalizing xs with
  | _ length ih =>
      by_cases hxs : xs = []
      · exact hxs ▸ nil
      · have hpos := List.length_pos_iff.2 hxs
        refine cut xs hxs (ih _ ?_ _ rfl)
        rw [List.length_drop]
        omega

theorem flatten_rows (hsize : 0 < size) (xs : List α) : (rows size xs).flatten = xs := by
  induction xs using rows_induction hsize with
  | nil => rw [rows_nil, List.flatten_nil]
  | cut xs hxs ih =>
      rw [rows_of_ne_nil hsize hxs, List.flatten_cons, ih, List.take_append_drop]

theorem ne_nil_of_mem_rows (hsize : 0 < size) (xs : List α) : ∀ row ∈ rows size xs, row ≠ [] := by
  induction xs using rows_induction hsize with
  | nil => simp [rows_nil]
  | cut xs hxs ih =>
      rw [rows_of_ne_nil hsize hxs, List.forall_mem_cons]
      exact ⟨by simp [hxs, hsize.ne'], ih⟩

end Rows

theorem rowText_eq (depth : Int) (row : List UInt8) :
    (rowText depth row).toList = (tabs depth).toList ++
      (", ".toList.intercalate (row.map fun b => (byteText b).toList) ++ [',']) := by
  simp [rowText, String.toList_intercalate, Function.comp_def]

/-- Rows with an end of line in front of each list the bytes that are in them. -/
theorem listing_rows (depth closing : Int) {table : List (List UInt8)}
    (htable : ∀ row ∈ table, row ≠ []) :
    Listing readByte (table.flatMap (fun row => '\n' :: (rowText depth row).toList) ++
      ('\n' :: (tabs closing).toList ++ ['}'])) table.flatten := by
  induction table with
  | nil =>
      refine .close fun c hc => ?_
      obtain rfl | hc := List.mem_cons.1 hc
      · rfl
      · exact isLayout_of_tabs closing c hc
  | cons row table ih =>
      obtain ⟨hrow, htable⟩ := List.forall_mem_cons.1 htable
      have hgap : ∀ c ∈ '\n' :: (tabs depth).toList, isLayout c :=
        List.forall_mem_cons.2 ⟨rfl, isLayout_of_tabs depth⟩
      have h := listing_intercalate (fun hgap hx => .next hgap hx (ih htable))
        (forall₂_reads reads_byte row) (by simpa using hrow) hgap
      rw [List.flatMap_cons, rowText_eq, List.flatten_cons]
      simpa using h

theorem cons_intercalate {α : Type} (separator : α) {texts : List (List α)} (hne : texts ≠ []) :
    separator :: [separator].intercalate texts = texts.flatMap (separator :: ·) := by
  induction texts with
  | nil => exact absurd rfl hne
  | cons text texts ih =>
      cases texts with
      | nil => simp
      | cons other texts =>
          rw [List.intercalate_cons_cons, List.flatMap_cons, ← ih (by simp)]
          simp

theorem bytesText_eq {data : List UInt8} (hdata : data ≠ []) (depth : Int) :
    (bytesText data depth).toList = opening "byte" ++
      ((rows bytesPerRow data).flatMap (fun row => '\n' :: (rowText (depth + 1) row).toList) ++
        ('\n' :: (tabs depth).toList ++ ['}'])) := by
  have hrows : (rows bytesPerRow data).map (fun row => (rowText (depth + 1) row).toList) ≠ [] := by
    rw [rows_of_ne_nil (by decide) hdata]
    simp
  have hflat := cons_intercalate '\n' hrows
  rw [List.flatMap_map] at hflat
  rw [bytesText, if_neg (by simpa using hdata), ← hflat]
  simp [opening, String.toList_intercalate, Function.comp_def]

theorem reads_bytes (data : List UInt8) (depth : Int) :
    Reads (readSlice readByte "byte") (bytesText data depth).toList data := by
  by_cases hdata : data = []
  · subst hdata
    have htext : (bytesText [] depth).toList = opening "byte" ++ ([] ++ ['}']) := by
      simp [bytesText, opening]
    rw [htext]
    refine ⟨⟨'[', rfl, by decide⟩, fun {rest} _ => ?_⟩
    have hlisting : Listing readByte ([] ++ ['}']) [] := .close nofun
    rw [List.append_assoc]
    exact readSlice_opening "byte" hlisting rest
  · have hpos : 0 < bytesPerRow := by decide
    have hlisting := listing_rows (depth + 1) depth (ne_nil_of_mem_rows hpos data)
    rw [flatten_rows hpos] at hlisting
    rw [bytesText_eq hdata]
    refine ⟨⟨'[', rfl, by decide⟩, fun {rest} _ => ?_⟩
    rw [List.append_assoc]
    exact readSlice_opening "byte" hlisting rest

end TypedConfig.Go
