import TypedConfig.Proofs.Schema.Catalog
import TypedConfig.Proofs.Value.Keys

namespace TypedConfig

open Naming (Suffix)

namespace Value

variable {v : Value} {entries : Table}

theorem KeysDistinct.of_record? (h : v.KeysDistinct) (hrecord : v.record? = some entries) :
    entries.KeysDistinct := by
  obtain rfl | ⟨rest, rfl⟩ := eq_of_record? hrecord
  · exact h
  · exact h.1

end Value

/-- The values along a path of keys, each found by its key in the table before it. The path goes on
in the first element of an array of tables. -/
def Table.along? : Table → List String → Option (List Value)
  | _, [] => some []
  | t, key :: path => do
    let v ← t.lookup key
    let entries ← v.record?
    let rest ← along? entries path
    return v :: rest

theorem Table.along?_cons {t entries : Table} {key : String} {v : Value} (path : List String)
    (hkey : t.lookup key = some v) (hrecord : v.record? = some entries) :
    t.along? (key :: path) = (entries.along? path).map (v :: ·) := by
  simp only [along?, hkey, hrecord, Option.bind_eq_bind, Option.bind_some]
  cases entries.along? path with
  | none => rfl
  | some rest => rfl

namespace Scope

def stem (scope : Scope) : String :=
  match scope.name with
  | none => ""
  | some name => Naming.strip name

theorem typeName_eq (scope : Scope) (key : String) (suffix : Suffix) :
    scope.typeName key suffix = scope.stem ++ Naming.pascalCase key ++ suffix.text := by
  obtain ⟨name, path, inArray⟩ := scope
  cases name with
  | none =>
      change _ = "" ++ _ ++ _
      rw [String.empty_append]
      rfl
  | some name => rfl

theorem stem_child (scope : Scope) (key : String) (suffix : Suffix) :
    (scope.child key suffix).stem = scope.stem ++ Naming.pascalCase key := by
  have hne : scope.stem ++ Naming.pascalCase key ≠ "" := by
    intro h
    exact Naming.pascalCase_ne_empty key (String.append_eq_empty_iff.1 h).2
  change Naming.strip (scope.typeName key suffix) = _
  rw [typeName_eq, Naming.strip_append_suffix hne]

end Scope

/-- The record type is that of the value `v` at the end of a path, which starts in a table at this
scope and passes the values `above`. -/
structure Schema.At (s : Schema) (scope : Scope) (t : Table) (path : List String)
    (above : List Value) (v : Value) : Prop where
  along : t.along? path = some (above ++ [v])
  fields : v.record? = some s.fields
  path_eq : s.path = scope.path ++ path
  name : s.name = scope.stem ++ String.join (path.map Naming.pascalCase) ++ v.suffix.text
  inArray : s.inArray = (scope.inArray || (above ++ [v]).any Value.isTableArray)

namespace Schema.At

variable {s : Schema} {scope : Scope} {t entries : Table} {key : String} {v w : Value}
  {path : List String} {above : List Value}

theorem single (hkey : t.lookup key = some v) (hrecord : v.record? = some entries) :
    At ⟨scope.typeName key v.suffix, (scope.child key v.suffix).path, entries,
      (scope.child key v.suffix).inArray⟩ scope t [key] [] v where
  along := by
    rw [Table.along?_cons [] hkey hrecord]
    rfl
  fields := hrecord
  path_eq := rfl
  name := by simp [Scope.typeName_eq]
  inArray := by simp [Scope.child, Value.isTableArray_of_record? hrecord]

/-- A path goes on below a value that has a table. -/
theorem cons (hkey : t.lookup key = some w) (hrecord : w.record? = some entries)
    (h : s.At (scope.child key w.suffix) entries path above v) :
    s.At scope t (key :: path) (w :: above) v where
  along := by
    rw [Table.along?_cons path hkey hrecord, h.along]
    rfl
  fields := h.fields
  path_eq := by simp [h.path_eq, Scope.child]
  name := by rw [h.name, Scope.stem_child, List.map_cons, String.join_cons, ← String.append_assoc]
  inArray := by
    rw [h.inArray, List.cons_append, List.any_cons, Value.isTableArray_of_record? hrecord,
      ← Bool.or_assoc]
    rfl

end Schema.At

theorem Scope.Holds.exists_at {scope : Scope} {t : Table} {s : Schema} (h : scope.Holds t s)
    (hkeys : t.KeysDistinct) : ∃ path above v, s.At scope t path above v := by
  induction h with
  | table hmem => exact ⟨_, _, _, .single (hkeys.lookup_eq hmem) rfl⟩
  | item hmem => exact ⟨_, _, _, .single (hkeys.lookup_eq hmem) rfl⟩
  | belowTable hmem _ ih | belowItem hmem _ ih =>
      obtain ⟨path, above, last, hat⟩ := ih ((hkeys.of_mem hmem).of_record? rfl)
      exact ⟨_, _, _, .cons (hkeys.lookup_eq hmem) rfl hat⟩

namespace Catalog

/-- The path of a record type leads to the table that its fields were taken from. Its name is made
of the keys of the path, and it stands in an array exactly if the path passes an array of tables or
ends at one. -/
theorem collect_faithful {tree : Table} (hkeys : tree.KeysDistinct) {s : Schema}
    (hs : s ∈ (collect tree).schemas) :
    ∃ above v, tree.along? s.path = some (above ++ [v]) ∧ v.record? = some s.fields ∧
      s.name = String.join (s.path.map Naming.pascalCase) ++
        (if v.isTable then "Config" else "Item") ∧
      (s.inArray ↔ ∃ w ∈ above ++ [v], w.isTableArray) := by
  obtain ⟨path, above, v, hat⟩ := (mem_collect hs).exists_at hkeys
  have hpath : s.path = path := hat.path_eq
  refine ⟨above, v, hpath ▸ hat.along, hat.fields, ?_, ?_⟩
  · have hsuffix : v.suffix.text = if v.isTable then "Config" else "Item" := by
      rw [Value.suffix, apply_ite Suffix.text]
      rfl
    rw [hat.name, hpath, hsuffix]
    exact congrArg (· ++ _) String.empty_append
  · rw [hat.inArray, ← List.any_eq_true]
    rfl

def suffixedKeys : Table :=
  [("appConfig", .table [("poolItem",
    .array [.table [("tlsConfig", .table [("on", .boolean true)])], .table []])])]

def suffixedKeysSchema : Schema :=
  ⟨"AppConfigPoolItemTlsConfigConfig", ["appConfig", "poolItem", "tlsConfig"],
    [("on", .boolean true)], true⟩

theorem collect_faithful_suffixedKeys : suffixedKeys.KeysDistinct ∧
    suffixedKeysSchema ∈ (collect suffixedKeys).schemas ∧
    ∃ above v, suffixedKeys.along? suffixedKeysSchema.path = some (above ++ [v]) ∧
      v.record? = some suffixedKeysSchema.fields ∧
      suffixedKeysSchema.name =
        String.join (suffixedKeysSchema.path.map Naming.pascalCase) ++
          (if v.isTable then "Config" else "Item") ∧
      (suffixedKeysSchema.inArray ↔ ∃ w ∈ above ++ [v], w.isTableArray) := by
  have hkeys : suffixedKeys.KeysDistinct := by decide
  have hcollect : (collect suffixedKeys).schemas.getLast? = some suffixedKeysSchema := rfl
  have hs := List.mem_of_getLast? hcollect
  exact ⟨hkeys, hs, collect_faithful hkeys hs⟩

end Catalog

end TypedConfig
