import TypedConfig.Proofs.Naming.Identifier
import TypedConfig.Proofs.Value.Kind
import TypedConfig.Proofs.Value.Sorted

namespace TypedConfig

namespace Value

open Naming (Suffix)

/-- The table that a value is or, of an array of tables, the first one. -/
def record? : Value → Option Table
  | .table entries => some entries
  | .array (.table entries :: _) => some entries
  | _ => none

def suffix (v : Value) : Suffix :=
  if v.isTable then .config else .item

variable {v : Value} {entries : Table}

theorem isLeaf_eq (v : Value) : v.isLeaf = v.record?.isNone := by
  cases v with
  | array items =>
      cases items with
      | nil => rfl
      | cons first rest => cases first <;> rfl
  | _ => rfl

theorem eq_of_record? (h : v.record? = some entries) :
    v = .table entries ∨ ∃ rest, v = .array (.table entries :: rest) := by
  unfold record? at h
  split at h
  · cases h
    exact .inl rfl
  · cases h
    exact .inr ⟨_, rfl⟩
  · cases h

theorem isTableArray_of_record? (h : v.record? = some entries) :
    v.isTableArray = (v.suffix == .item) := by
  obtain rfl | ⟨rest, rfl⟩ := eq_of_record? h
  · rfl
  · rfl

theorem sizeOf_lt_of_record? (h : v.record? = some entries) {e : String × Value}
    (he : e ∈ entries) : sizeOf e.2 < sizeOf v := by
  have hlt := List.sizeOf_lt_of_mem he
  obtain ⟨key, w⟩ := e
  obtain rfl | ⟨rest, rfl⟩ := eq_of_record? h
  · simp only [Prod.mk.sizeOf_spec, table.sizeOf_spec] at hlt ⊢
    omega
  · simp only [Prod.mk.sizeOf_spec, table.sizeOf_spec, array.sizeOf_spec,
      List.cons.sizeOf_spec] at hlt ⊢
    omega

/-- Induction along the tables that have record types: down from a table, or from the first one of
an array, to its values. -/
theorem record_induction {P : Value → Prop} (leaf : ∀ v : Value, v.isLeaf → P v)
    (record : ∀ (v : Value) (entries : Table), v.record? = some entries →
      (∀ e ∈ entries, P e.2) → P v) (v : Value) : P v := by
  cases hrecord : v.record? with
  | none => exact leaf v (by rw [isLeaf_eq, hrecord]; rfl)
  | some entries =>
      refine record v entries hrecord fun e he => ?_
      have := sizeOf_lt_of_record? hrecord he
      exact record_induction leaf record e.2
termination_by sizeOf v

end Value

/-- The record type is that of a table, or of the elements of an array of tables, below a table
at this scope. -/
inductive Scope.Holds : Scope → Table → Schema → Prop
  | table {scope : Scope} {t : Table} {key : String} {entries : Table}
      (hmem : (key, .table entries) ∈ t) :
      Holds scope t ⟨scope.typeName key .config, (scope.child key .config).path, entries,
        (scope.child key .config).inArray⟩
  | item {scope : Scope} {t : Table} {key : String} {entries : Table} {rest : List Value}
      (hmem : (key, .array (.table entries :: rest)) ∈ t) :
      Holds scope t ⟨scope.typeName key .item, (scope.child key .item).path, entries,
        (scope.child key .item).inArray⟩
  | belowTable {scope : Scope} {t : Table} {key : String} {entries : Table} {schema : Schema}
      (hmem : (key, .table entries) ∈ t) (below : Holds (scope.child key .config) entries schema) :
      Holds scope t schema
  | belowItem {scope : Scope} {t : Table} {key : String} {entries : Table} {rest : List Value}
      {schema : Schema} (hmem : (key, .array (.table entries :: rest)) ∈ t)
      (below : Holds (scope.child key .item) entries schema) : Holds scope t schema

namespace Scope.Holds

variable {scope : Scope} {key : String} {v : Value} {entries t : Table} {schema : Schema}

theorem of_record? (hmem : (key, v) ∈ t) (h : v.record? = some entries) :
    scope.Holds t ⟨scope.typeName key v.suffix, (scope.child key v.suffix).path, entries,
      (scope.child key v.suffix).inArray⟩ := by
  obtain rfl | ⟨rest, rfl⟩ := Value.eq_of_record? h
  · exact .table hmem
  · exact .item hmem

theorem of_below (hmem : (key, v) ∈ t) (h : v.record? = some entries)
    (below : (scope.child key v.suffix).Holds entries schema) : scope.Holds t schema := by
  obtain rfl | ⟨rest, rfl⟩ := Value.eq_of_record? h
  · exact .belowTable hmem below
  · exact .belowItem hmem below

end Scope.Holds

theorem Schema.sortedFields_perm (s : Schema) : s.sortedFields.Perm s.fields :=
  Table.sortByKey_perm s.fields

@[simp] theorem Schema.mem_sortedFields {s : Schema} {field : String × Value} :
    field ∈ s.sortedFields ↔ field ∈ s.fields :=
  s.sortedFields_perm.mem_iff

namespace Catalog

theorem sorted_perm (c : Catalog) : c.sorted.Perm c.schemas :=
  Sorting.sort_perm _ _

@[simp] theorem mem_sorted {c : Catalog} {s : Schema} : s ∈ c.sorted ↔ s ∈ c.schemas :=
  c.sorted_perm.mem_iff

variable {schema : Schema}

theorem mem_add {catalog : Catalog} {added : Schema} (h : schema ∈ (catalog.add added).schemas) :
    schema ∈ catalog.schemas ∨ schema = added := by
  unfold add at h
  split at h
  · exact .inl h
  · simpa using h

theorem visits_eq_map (scope : Scope) (entries : Table) :
    visits scope entries = entries.map fun e => (e.1, fun c => addValue scope e.1 c e.2) := by
  induction entries with
  | nil => rfl
  | cons entry entries ih => rw [visits, ih, List.map_cons]

theorem addEntries_eq_foldl (scope : Scope) (c : Catalog) (entries : Table) :
    addEntries scope c entries =
      (Table.sortByKey entries).foldl (fun c e => addValue scope e.1 c e.2) c := by
  rw [addEntries, followAll, visits_eq_map, Table.sortByKey_map, List.foldl_map]

theorem addValue_of_isLeaf (scope : Scope) (key : String) (c : Catalog) {v : Value}
    (hv : v.isLeaf) : addValue scope key c v = c := by
  cases v with
  | table entries => cases hv
  | array items =>
      cases items with
      | nil => rfl
      | cons first rest => cases first <;> first | rfl | cases hv
  | _ => rfl

theorem addValue_of_record? {v : Value} {entries : Table} (h : v.record? = some entries)
    (scope : Scope) (key : String) (c : Catalog) :
    addValue scope key c v =
      let child := scope.child key v.suffix
      if c.contains (scope.typeName key v.suffix) then c
      else addEntries child
        (c.add ⟨scope.typeName key v.suffix, child.path, entries, child.inArray⟩) entries := by
  obtain rfl | ⟨rest, rfl⟩ := Value.eq_of_record? h
  · rw [addValue.eq_def]
    rfl
  · rw [addValue.eq_def]
    rfl

/-- What every visit preserves holds after all of them. -/
theorem addEntries_induction {P : Catalog → Prop} {scope : Scope} {entries : Table}
    (visit : ∀ e ∈ entries, ∀ c, P c → P (addValue scope e.1 c e.2)) {c : Catalog} (hc : P c) :
    P (addEntries scope c entries) := by
  rw [addEntries_eq_foldl]
  exact List.foldlRecOn _ _ hc fun c hc e he => visit e (Table.mem_sortByKey.1 he) c hc

theorem mem_addValue {v : Value} {scope : Scope} {key : String} {catalog : Catalog} {t : Table}
    (hmem : (key, v) ∈ t) (h : schema ∈ (addValue scope key catalog v).schemas) :
    schema ∈ catalog.schemas ∨ scope.Holds t schema := by
  induction v using Value.record_induction generalizing scope key catalog t with
  | leaf v hv =>
      rw [addValue_of_isLeaf _ _ _ hv] at h
      exact .inl h
  | record v entries hrecord ih =>
      rw [addValue_of_record? hrecord] at h
      dsimp only at h
      split at h
      · exact .inl h
      · refine addEntries_induction (P := fun c => schema ∈ c.schemas →
          schema ∈ catalog.schemas ∨ scope.Holds t schema) ?_ ?_ h
        · intro e he c hc h
          exact (ih e he he h).elim hc fun hbelow => .inr (.of_below hmem hrecord hbelow)
        · intro h
          obtain h | rfl := mem_add h
          · exact .inl h
          · exact .inr (.of_record? hmem hrecord)

theorem mem_collect {tree : Table} (h : schema ∈ (collect tree).schemas) :
    Scope.root.Holds tree schema := by
  refine addEntries_induction (P := fun c => schema ∈ c.schemas → Scope.root.Holds tree schema)
    ?_ (fun h => absurd h List.not_mem_nil) h
  intro e he c hc h
  exact (mem_addValue he h).elim hc id

end Catalog

namespace Scope

theorem fieldType_of_isLeaf (scope : Scope) (key : String) {v : Value} (hv : v.isLeaf) :
    scope.fieldType key v = Go.GoType.ofValue v := by
  unfold fieldType
  split
  · next hkind =>
    obtain ⟨entries, rfl⟩ := Value.exists_of_kind_table hkind
    cases hv
  · next hkind =>
    obtain ⟨entries, rest, rfl⟩ := Value.exists_of_kind_tableArray hkind
    cases hv
  · rfl

end Scope

namespace Scope.Holds

variable {scope : Scope} {t : Table} {schema : Schema}

theorem isName (h : scope.Holds t schema) (hscope : scope.Named) : Go.IsName schema.name := by
  induction h with
  | table _ => exact hscope.isName_typeName _ _
  | item _ => exact hscope.isName_typeName _ _
  | belowTable _ _ ih => exact ih (hscope.child _ _)
  | belowItem _ _ ih => exact ih (hscope.child _ _)

theorem entriesContainDuration (h : scope.Holds t schema)
    (hfields : Value.entriesContainDuration schema.fields) : Value.entriesContainDuration t := by
  have hentry {t : Table} {key : String} {v : Value} (hmem : (key, v) ∈ t)
      (hv : v.containsDuration) : Value.entriesContainDuration t := by
    rw [Value.entriesContainDuration_eq_any]
    exact List.any_eq_true.2 ⟨_, hmem, hv⟩
  have hitem {entries : Table} {rest : List Value} (h : Value.entriesContainDuration entries) :
      (Value.array (.table entries :: rest)).containsDuration := by
    rw [Value.containsDuration, Value.itemsContainDuration, Value.containsDuration, h, Bool.true_or]
  induction h with
  | table hmem => exact hentry hmem hfields
  | item hmem => exact hentry hmem (hitem hfields)
  | belowTable hmem _ ih => exact hentry hmem (ih hfields)
  | belowItem hmem _ ih => exact hentry hmem (hitem (ih hfields))

end Scope.Holds

end TypedConfig
