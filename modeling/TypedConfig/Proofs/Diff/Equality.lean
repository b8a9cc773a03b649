import TypedConfig.Generation.Generator
import TypedConfig.Proofs.Diff.Keys
import TypedConfig.Proofs.Toml.Keys

namespace TypedConfig

theorem Input.decode_text_of_ok {content : String} {tree : Table}
    (h : Toml.decode content = .ok tree) (source : String) :
    (Input.text content).decode source = .ok tree :=
  congrArg (Except.mapError (GenerationError.ofDecode source)) h

/-- What is decoded, from a text or from bytes, states every key once. -/
theorem Input.keysDistinct_decode {input : Input} {source : String} {tree : Table}
    (h : input.decode source = .ok tree) : tree.KeysDistinct := by
  have hread {text : String} {wrap : Toml.DecodeError → GenerationError}
      (h : (Toml.decode text).mapError wrap = .ok tree) : tree.KeysDistinct := by
    cases hdecode : Toml.decode text with
    | ok read =>
        rw [hdecode] at h
        cases h
        exact Toml.keysDistinct_decode hdecode
    | error cause =>
        rw [hdecode] at h
        cases h
  cases input with
  | text content => exact hread h
  | bytes data =>
      unfold decode at h
      cases hbytes : String.fromUTF8? data with
      | some content =>
          simp only [hbytes] at h
          exact hread h
      | none =>
          simp only [hbytes] at h
          cases h

namespace Diff

variable {first second : Table}

theorem changesAt_eq_nil_iff {outer key : String} : changesAt outer first second key = [] ↔
    (key ∈ Table.keys first ↔ key ∈ Table.keys second) ∧
      ∀ v w, first.lookup key = some v → second.lookup key = some w →
        compareValue (fullKey outer key) v (some w) = [] := by
  rw [changesAt, ← Value.hasKey_iff_mem_keys, ← Value.hasKey_iff_mem_keys, Value.hasKey,
    Value.hasKey]
  cases first.lookup key with
  | none => cases second.lookup key <;> simp
  | some left => cases second.lookup key <;> simp [compareValue_none]

/-- Tables show no changes if they have the same keys and no changes at any of them. -/
theorem compareValue_tables_eq_nil_iff (hfirst : first.KeysDistinct)
    (hsecond : second.KeysDistinct) (full : String) :
    compareValue full (.table first) (some (.table second)) = [] ↔
      (∀ key, key ∈ Table.keys first ↔ key ∈ Table.keys second) ∧
        ∀ key v w, first.lookup key = some v → second.lookup key = some w →
          compareValue (fullKey full key) v (some w) = [] := by
  rw [compareValue_tables, compare_eq_flatMap hfirst hsecond, List.flatMap_eq_nil_iff]
  simp only [changesAt_eq_nil_iff, mem_sortedKeys]
  constructor
  · intro h
    refine ⟨fun key => ?_, fun key v w hv hw => ?_⟩
    · by_cases hkey : key ∈ Table.keys first ∨ key ∈ Table.keys second
      · exact (h key hkey).1
      · rw [not_or] at hkey
        exact iff_of_false hkey.1 hkey.2
    · have hkey : key ∈ Table.keys first := List.mem_map_of_mem (Table.mem_of_lookup hv)
      exact (h key (.inl hkey)).2 v w hv hw
  · rintro ⟨hkeys, hvalues⟩ key -
    exact ⟨hkeys key, hvalues key⟩

theorem compareValue_eq_nil_iff {left right : Value} (hleft : left.KeysDistinct)
    (hright : right.KeysDistinct) :
    ∀ full, compareValue full left (some right) = [] ↔ left.equal right := by
  refine Value.pair_induction
    (P := fun left right => ∀ full, compareValue full left (some right) = [] ↔ left.equal right)
    (fun first second hfirst hsecond ih full => ?_) (fun left right h full => ?_) hleft hright
  · rw [compareValue_tables_eq_nil_iff hfirst hsecond, Value.equal_table_iff hfirst]
    refine and_congr_right' (forall_congr' fun key => forall₂_congr fun v w => ?_)
    exact forall₂_congr fun hv hw => ih key v w hv hw (fullKey full key)
  · rw [compareValue_of_not_tables full h]
    cases left.equal right <;> simp

/-- "No differences" means that the tables are equal. -/
theorem compare_eq_nil_iff (hfirst : first.KeysDistinct) (hsecond : second.KeysDistinct)
    (outer : String) :
    compare first second outer = [] ↔ (Value.table first).equal (.table second) := by
  rw [← compareValue_tables]
  exact compareValue_eq_nil_iff hfirst hsecond outer

def schedule : Table :=
  [("start", .moment (.stamp ⟨2024, 2, 29⟩ ⟨23, 30, 0, 0⟩ (some 0))),
    ("steps", .array [.table [("after", .integer 0), ("retry", .boolean true)], .array []]),
    ("window", .table [("days", .array [.moment (.date ⟨2024, 1, 1⟩)]), ("open", .string "9")])]

def scheduleElsewhere : Table :=
  [("window", .table [("open", .string "9"), ("days", .array [.moment (.date ⟨2024, 1, 1⟩)])]),
    ("steps", .array [.table [("retry", .boolean true),
      ("after", .float (.finite ⟨true, 0, 0, by decide, .inr rfl, by decide⟩))], .array []]),
    ("start", .moment (.stamp ⟨2024, 3, 1⟩ ⟨1, 0, 0, 0⟩ (some 90)))]

theorem compare_schedules_eq_nil : schedule.KeysDistinct ∧ scheduleElsewhere.KeysDistinct ∧
    (Value.table schedule).equal (.table scheduleElsewhere) ∧
    compare schedule scheduleElsewhere "" = [] := by
  have hschedule : schedule.KeysDistinct := by decide
  have helsewhere : scheduleElsewhere.KeysDistinct := by decide
  have hequal : (Value.table schedule).equal (.table scheduleElsewhere) := by decide +kernel
  exact ⟨hschedule, helsewhere, hequal, (compare_eq_nil_iff hschedule helsewhere "").2 hequal⟩

/-- A configuration equals itself, and shows no differences from itself, exactly if it states no
NaN. -/
theorem no_self_differences_iff {input : Input} {source : String} {tree : Table}
    (h : input.decode source = .ok tree) :
    ((Value.table tree).equal (.table tree) ↔ (Value.table tree).NanFree) ∧
      ∀ outer, compare tree tree outer = [] ↔ (Value.table tree).NanFree := by
  have hkeys := Input.keysDistinct_decode h
  have hequal : (Value.table tree).equal (.table tree) ↔ (Value.table tree).NanFree :=
    Value.equal_self_iff hkeys
  refine ⟨hequal, fun outer => ?_⟩
  rw [← hequal, ← compareValue_tables]
  exact compareValue_eq_nil_iff hkeys hkeys outer

def limits : Table :=
  [("peak", .float (.infinite true)),
    ("job", .array [.table [("at", .moment (.stamp ⟨1979, 5, 27⟩ ⟨7, 32, 0, 0⟩ (some (-60))))],
      .table []])]

def isLimits : Except Toml.DecodeError Table → Bool
  | .ok [("peak", .float (.infinite true)),
      ("job", .array [.table [("at", .moment (.stamp ⟨1979, 5, 27⟩ ⟨7, 32, 0, 0⟩ (some (-60))))],
        .table []])] => true
  | _ => false

theorem eq_of_isLimits {result : Except Toml.DecodeError Table} (h : isLimits result) :
    result = .ok limits := by
  unfold isLimits at h
  split at h
  · rfl
  · cases h

def limitsText : String :=
  "peak = -inf\n[[job]]\nat = 1979-05-27T07:32:00-01:00\n[[job]]"

theorem no_self_differences_limits : (Input.text limitsText).decode "limits.toml" = .ok limits ∧
    (Value.table limits).equal (.table limits) ∧ compare limits limits "" = [] := by
  have hdecode : (Input.text limitsText).decode "limits.toml" = .ok limits :=
    Input.decode_text_of_ok (eq_of_isLimits (by decide +kernel)) _
  have hfree : (Value.table limits).NanFree := by
    simp [limits, Value.NanFree, Value.EntriesNanFree, Value.ItemsNanFree]
  obtain ⟨hequal, hcompare⟩ := no_self_differences_iff hdecode
  exact ⟨hdecode, hequal.2 hfree, (hcompare "").2 hfree⟩

def unlimited : Table :=
  [("limit", .float .nan)]

def isUnlimited : Except Toml.DecodeError Table → Bool
  | .ok [("limit", .float .nan)] => true
  | _ => false

theorem eq_of_isUnlimited {result : Except Toml.DecodeError Table} (h : isUnlimited result) :
    result = .ok unlimited := by
  unfold isUnlimited at h
  split at h
  · rfl
  · cases h

/-- A NaN equals nothing, so a configuration that states one differs from itself. -/
theorem not_all_configurations_equal_themselves : ¬ ∀ (input : Input) (source : String)
    (tree : Table), input.decode source = .ok tree →
    (Value.table tree).equal (.table tree) ∧ compare tree tree "" = [] := by
  intro h
  have hdecode : (Input.text "limit = nan").decode "limits.toml" = .ok unlimited :=
    Input.decode_text_of_ok (eq_of_isUnlimited (by decide +kernel)) _
  obtain ⟨hequal, -⟩ := h _ _ _ hdecode
  have hunequal : (Value.table unlimited).equal (.table unlimited) = false := rfl
  rw [hunequal] at hequal
  cases hequal

end Diff

end TypedConfig
