import TypedConfig.Proofs.Duration.Literal
import TypedConfig.Proofs.Go.Elements
import TypedConfig.Proofs.Go.Number

namespace TypedConfig.Go

inductive Datum where
  | string (text : String)
  | number (q : ℚ)
  | boolean (b : Bool)
  | duration (nanoseconds : Int)
  | bytes (data : List UInt8)
  | list (items : List Datum)

def readWholeNumber : TextReader ℚ := fun cs => do
  let (q, rest) ← readNumber cs
  if q.isInt then return (q, rest) else none

def readBoolean : TextReader Bool := fun cs =>
  let word := cs.takeWhile isNameChar
  if word = "true".toList then some (true, cs.dropWhile isNameChar)
  else if word = "false".toList then some (false, cs.dropWhile isNameChar)
  else none

def Expression.exact : Expression → Int
  | .number n => n
  | .unit u => u.nanoseconds
  | .operation o x y => o.apply x.exact y.exact

def isExpressionChar (c : Char) : Bool :=
  isWordChar c || [' ', '+', '-', '*', '(', ')'].contains c

def readDuration : TextReader Int := fun cs =>
  (readExpression (tokens [] (cs.takeWhile isExpressionChar))).map
    fun x => (x.exact, cs.dropWhile isExpressionChar)

def readValue : GoType → TextReader Datum
  | .string => mapReader .string readString
  | .int64 => mapReader .number readWholeNumber
  | .float64 => mapReader .number readNumber
  | .bool => mapReader .boolean readBoolean
  | .duration => mapReader .duration readDuration
  | .slice .byte => mapReader .bytes (readSlice readByte "byte")
  | .slice t => mapReader .list (readSlice (readValue t) t.text)
  | .byte | .any | .struct | .named _ => fun _ => none

/-- The datum of which a text is the literal. -/
def read (t : GoType) (text : String) : Option Datum :=
  match readValue t text.toList with
  | some (d, []) => some d
  | _ => none

theorem read_of_reads {t : GoType} {text : String} {d : Datum}
    (h : Reads (readValue t) text.toList d) : read t text = some d := by
  have hend : EndsElement [] := nofun
  have hread := h.read_append hend
  rw [List.append_nil] at hread
  rw [read, hread]

theorem reads_string (s : String) : Reads (readValue .string) (quote s).toList (.string s) := by
  have h : Reads readString (quote s).toList s := by
    refine ⟨⟨'"', ?_, by decide⟩, fun {rest} _ => readString_quote s rest⟩
    rw [quote, String.toList_ofList]
    rfl
  exact h.map Datum.string

theorem endsNumber_of_endsElement {rest : List Char} (h : EndsElement rest) : EndsNumber rest := by
  intro c hc
  obtain rfl | rfl := h c hc <;> decide

theorem not_isLayout_of_isDigit {c : Char} (h : Decimal.isDigit c) :
    isLayout c = false ∧ c ≠ '}' := by
  constructor
  · by_contra hlayout
    simp only [isLayout, isBlank, Bool.not_eq_false, Bool.or_eq_true, beq_iff_eq] at hlayout
    obtain ((rfl | rfl) | rfl) | rfl := hlayout <;> exact absurd h (by decide)
  · rintro rfl
    exact absurd h (by decide)

theorem Number.starts (n : Number) : ∃ c ∈ n.text.head?, isLayout c = false ∧ c ≠ '}' := by
  rw [Number.text]
  cases n.negative with
  | true => exact ⟨'-', rfl, by decide⟩
  | false =>
      obtain ⟨c, cs, hwhole⟩ := List.exists_cons_of_ne_nil n.whole_ne_nil
      have hdigit := n.whole_digits c (hwhole ▸ List.mem_cons_self)
      exact ⟨c, by rw [hwhole]; rfl, not_isLayout_of_isDigit hdigit⟩

theorem Number.reads (n : Number) : Reads readNumber n.text n.value where
  starts := n.starts
  read_append hrest := readNumber_text n (endsNumber_of_endsElement hrest)

theorem reads_integer (n : Int) : Reads (readValue .int64) (toString n).toList (.number n) := by
  have h : Reads readWholeNumber (integer n).text (n : ℚ) := by
    refine ⟨(integer n).starts, fun {rest} hrest => ?_⟩
    rw [readWholeNumber, (integer n).reads.read_append hrest, value_integer]
    rfl
  rw [← text_integer]
  exact h.map Datum.number

theorem reads_float (x : Binary64.Finite) :
    Reads (readValue .float64) (floatText (.finite x)).toList (.number x.decimal) := by
  obtain ⟨n, htext, hvalue⟩ := exists_number x
  rw [← htext, ← hvalue]
  exact n.reads.map Datum.number

theorem readBoolean_append (b : Bool) {rest : List Char} (hrest : EndsElement rest) :
    readBoolean ((if b then "true" else "false").toList ++ rest) = some (b, rest) := by
  have hname : ∀ c ∈ (if b then "true" else "false").toList, isNameChar c := by
    cases b <;> exact List.all_eq_true.1 rfl
  have hstop := isNameChar_of_endsElement hrest
  rw [readBoolean, Text.takeWhile_append_of_stop hname hstop,
    Text.dropWhile_append_of_stop hname hstop]
  cases b <;> rfl

theorem reads_boolean (b : Bool) :
    Reads (readValue .bool) (if b then "true" else "false").toList (.boolean b) := by
  have hstarts : ∃ c ∈ (if b then "true" else "false").toList.head?,
      isLayout c = false ∧ c ≠ '}' := by
    cases b
    · exact ⟨'f', rfl, by decide⟩
    · exact ⟨'t', rfl, by decide⟩
  have h : Reads readBoolean (if b then "true" else "false").toList b :=
    ⟨hstarts, readBoolean_append b⟩
  exact h.map Datum.boolean

section Durations

open Duration (Part)

theorem exact_expression {p : Part} (hp : 0 ≤ p.count) : p.expression.exact = p.nanoseconds := by
  rw [Part.expression, Part.nanoseconds, Expression.exact, Expression.exact, Expression.exact,
    Int.toNat_of_nonneg hp]
  rfl

theorem exact_added {ps : List Part} (hps : ∀ p ∈ ps, 0 ≤ p.count) (x : Expression) :
    (Part.added x ps).exact = x.exact + (ps.map Part.nanoseconds).sum := by
  induction ps generalizing x with
  | nil => rw [List.map_nil, List.sum_nil, Int.add_zero]; rfl
  | cons p ps ih =>
      obtain ⟨hp, hps⟩ := List.forall_mem_cons.1 hps
      have hsum : (Expression.operation .sum x p.expression).exact = x.exact + p.nanoseconds := by
        rw [Expression.exact, exact_expression hp]
        rfl
      rw [List.map_cons, List.sum_cons, ← Int.add_assoc, ← hsum]
      exact ih hps _

/-- The literal of a duration is an expression that comes to it. -/
theorem exists_expression (n : Int) : ∃ x,
    readExpression (tokens [] (Duration.literal n).toList) = some x ∧ x.exact = n := by
  by_cases hn : n = 0
  · subst hn
    exact ⟨.number 0, by decide +kernel, rfl⟩
  · obtain ⟨p, ps, hparts, hp, hps, hsum⟩ := Duration.exists_parts hn
    have hexact : (Part.added p.expression ps).exact = n.natAbs := by
      rw [exact_added hps, exact_expression hp, hsum]
    rw [Duration.literal, if_neg hn, hparts]
    dsimp only
    split
    · next hneg =>
      refine ⟨_, Duration.readExpression_negation hp hps, ?_⟩
      rw [Expression.exact, hexact]
      change (0 : Int) - _ = n
      omega
    · next hneg =>
      refine ⟨_, Duration.readExpression_sum hp hps, ?_⟩
      omega

theorem part_text {p : Part} (hp : 0 ≤ p.count) :
    p.text.toList = Decimal.numeral p.count.toNat ++ '*' :: p.unit.constant.toList := by
  rw [Part.text, String.toList_append, String.toList_append,
    Duration.toList_toString_of_nonneg hp, List.append_assoc]
  rfl

theorem isExpressionChar_of_part {p : Part} (hp : 0 ≤ p.count) :
    ∀ c ∈ p.text.toList, isExpressionChar c := by
  have hword {c : Char} (h : isWordChar c) : isExpressionChar c := by
    rw [isExpressionChar, h]
    rfl
  intro c hc
  rw [part_text hp] at hc
  obtain hc | hc := List.mem_append.1 hc
  · exact hword (Duration.isWordChar_of_numeral _ c hc)
  · obtain rfl | hc := List.mem_cons.1 hc
    · rfl
    · exact hword (Duration.isWordChar_of_constant _ c hc)

theorem isExpressionChar_of_sum {ps : List Part} (hps : ∀ p ∈ ps, 0 ≤ p.count) :
    ∀ c ∈ (" + ".intercalate (ps.map Part.text)).toList, isExpressionChar c := by
  have hplus : ∀ c ∈ " + ".toList, isExpressionChar c := List.all_eq_true.1 rfl
  induction ps with
  | nil => nofun
  | cons p ps ih =>
      obtain ⟨hp, hps⟩ := List.forall_mem_cons.1 hps
      have hpart := isExpressionChar_of_part hp
      cases ps with
      | nil => simpa using hpart
      | cons q ps =>
          rw [List.map_cons, List.map_cons, String.intercalate_cons_cons, ← List.map_cons,
            String.toList_append, String.toList_append, List.forall_mem_append,
            List.forall_mem_append]
          exact ⟨⟨hpart, hplus⟩, ih hps⟩

theorem isExpressionChar_of_literal (n : Int) :
    ∀ c ∈ (Duration.literal n).toList, isExpressionChar c := by
  by_cases hn : n = 0
  · subst hn
    exact List.all_eq_true.1 rfl
  · obtain ⟨p, ps, hparts, hp, hps, -⟩ := Duration.exists_parts hn
    have hsum := isExpressionChar_of_sum (List.forall_mem_cons.2 ⟨hp, hps⟩)
    have hopen : ∀ c ∈ "-(".toList, isExpressionChar c := List.all_eq_true.1 rfl
    have hclose : ∀ c ∈ ")".toList, isExpressionChar c := List.all_eq_true.1 rfl
    rw [Duration.literal, if_neg hn, hparts]
    dsimp only
    split
    · rw [String.toList_append, String.toList_append, List.forall_mem_append,
        List.forall_mem_append]
      exact ⟨⟨hopen, hsum⟩, hclose⟩
    · exact hsum

/-- A sum starts with the digits of its first part. -/
theorem starts_sum {p : Part} (hp : 0 ≤ p.count) (ps : List Part) :
    ∃ c ∈ (" + ".intercalate ((p :: ps).map Part.text)).toList.head?,
      isLayout c = false ∧ c ≠ '}' := by
  have hne : Decimal.numeral p.count.toNat ≠ [] := Nat.toDigits_ne_nil
  obtain ⟨c, cs, hdigits⟩ := List.exists_cons_of_ne_nil hne
  have hdigit := not_isLayout_of_isDigit (isDigit_of_mem_numeral c (hdigits ▸ List.mem_cons_self))
  refine ⟨c, ?_, hdigit⟩
  cases ps with
  | nil =>
      rw [List.map_singleton, String.intercalate_singleton, part_text hp, hdigits]
      rfl
  | cons q ps =>
      rw [List.map_cons, List.map_cons, String.intercalate_cons_cons, String.toList_append,
        String.toList_append, part_text hp, hdigits]
      rfl

theorem starts_literal (n : Int) :
    ∃ c ∈ (Duration.literal n).toList.head?, isLayout c = false ∧ c ≠ '}' := by
  by_cases hn : n = 0
  · subst hn
    exact ⟨'0', rfl, by decide⟩
  · obtain ⟨p, ps, hparts, hp, -⟩ := Duration.exists_parts hn
    rw [Duration.literal, if_neg hn, hparts]
    dsimp only
    split
    · refine ⟨'-', ?_, by decide⟩
      rw [String.toList_append, String.toList_append]
      rfl
    · exact starts_sum hp ps

theorem reads_duration (n : Int) :
    Reads (readValue .duration) (Duration.literal n).toList (.duration n) := by
  have h : Reads readDuration (Duration.literal n).toList n := by
    refine ⟨starts_literal n, fun {rest} hrest => ?_⟩
    have hchars := isExpressionChar_of_literal n
    have hstop : ∀ c ∈ rest.head?, isExpressionChar c = false := by
      intro c hc
      obtain rfl | rfl := hrest c hc <;> decide
    obtain ⟨x, hread, hexact⟩ := exists_expression n
    rw [readDuration, Text.takeWhile_append_of_stop hchars hstop,
      Text.dropWhile_append_of_stop hchars hstop, hread, Option.map_some, hexact]
  exact h.map Datum.duration

end Durations

theorem reads_blob (data : List UInt8) (depth : Int) :
    Reads (readValue (.slice .byte)) (bytesText data depth).toList (.bytes data) :=
  (reads_bytes data depth).map Datum.bytes

theorem readValue_slice {t : GoType} (ht : t ≠ .byte) :
    readValue (.slice t) = mapReader .list (readSlice (readValue t) t.text) := by
  rw [readValue.eq_def]
  cases t <;> first | rfl | exact absurd rfl ht

theorem reads_list {t : GoType} (ht : t ≠ .byte) {texts : List String} {ds : List Datum}
    (h : List.Forall₂ (Reads (readValue t)) (texts.map String.toList) ds) (hne : texts ≠ []) :
    Reads (readValue (.slice t))
      ("[]" ++ t.text ++ "\x7b" ++ ", ".intercalate texts ++ "\x7d").toList (.list ds) := by
  rw [readValue_slice ht]
  exact (reads_slice t.text h hne).map Datum.list

/-- A list without elements is written as `nil`. -/
theorem reads_empty {t : GoType} (ht : t ≠ .byte) :
    Reads (readValue (.slice t)) "nil".toList (.list []) := by
  rw [readValue_slice ht]
  exact (reads_nil (readValue t) t.text).map Datum.list

end TypedConfig.Go
