import TypedConfig.Proofs.Emission.Run
import TypedConfig.Proofs.Schema.Catalog

/-!
Every traversal puts the keys of the table it is at in order. So neither the record types nor the
literals of a configuration change when all its keys are put in order beforehand.
-/

namespace TypedConfig

theorem Value.suffix_sorted (v : Value) : v.sorted.suffix = v.suffix := by
  rw [suffix, isTable_sorted, suffix]

theorem Value.record?_sorted (v : Value) : v.sorted.record? = v.record?.map Table.sorted := by
  cases v with
  | array items =>
      cases items with
      | nil => rfl
      | cons first rest => cases first <;> rfl
  | _ => rfl

theorem Value.isLeaf_sorted (v : Value) : v.sorted.isLeaf = v.isLeaf := by
  rw [isLeaf_eq, record?_sorted, Option.isNone_map, isLeaf_eq]

theorem Table.sortByKey_sorted (t : Table) :
    sortByKey t.sorted = (sortByKey t).map fun e => (e.1, e.2.sorted) := by
  rw [sorted, sortByKey_sortByKey, Value.sortedEntries_eq_map, sortByKey_map]

theorem Scope.fieldType_sorted (scope : Scope) (key : String) (v : Value) :
    scope.fieldType key v.sorted = scope.fieldType key v := by
  rw [fieldType, fieldType, Value.kind_sorted, Value.ofValue_sorted]

theorem Value.entriesContainDuration_sortByKey (entries : Table) :
    entriesContainDuration (Table.sortByKey entries) = entriesContainDuration entries := by
  rw [entriesContainDuration_eq_any, Table.any_sortByKey, ← entriesContainDuration_eq_any]

mutual

theorem Value.containsDuration_sorted :
    ∀ v : Value, v.sorted.containsDuration = v.containsDuration
  | .array items => itemsContainDuration_sorted items
  | .table entries =>
      (entriesContainDuration_sortByKey _).trans (entriesContainDuration_sorted entries)
  | .string _ | .integer _ | .float _ | .boolean _ | .moment _ | .absent => rfl

theorem Value.itemsContainDuration_sorted : ∀ items : List Value,
    itemsContainDuration (sortedItems items) = itemsContainDuration items
  | [] => rfl
  | v :: rest => by
      rw [sortedItems, itemsContainDuration, itemsContainDuration, containsDuration_sorted v,
        itemsContainDuration_sorted rest]

theorem Value.entriesContainDuration_sorted : ∀ entries : List (String × Value),
    entriesContainDuration (sortedEntries entries) = entriesContainDuration entries
  | [] => rfl
  | (_, v) :: rest => by
      rw [sortedEntries, entriesContainDuration, entriesContainDuration, containsDuration_sorted v,
        entriesContainDuration_sorted rest]

end

def Schema.sorted (s : Schema) : Schema :=
  { s with fields := Table.sorted s.fields }

namespace Catalog

/-- The same record types, the keys of the tables in their fields in order. -/
def withSortedFields (c : Catalog) : Catalog :=
  ⟨c.schemas.map Schema.sorted⟩

theorem contains_withSortedFields (c : Catalog) (name : String) :
    c.withSortedFields.contains name = c.contains name := by
  rw [contains, withSortedFields, List.any_map]
  rfl

theorem withSortedFields_add (c : Catalog) (s : Schema) :
    (c.add s).withSortedFields = c.withSortedFields.add s.sorted := by
  have hname : s.sorted.name = s.name := rfl
  rw [add, add, contains_withSortedFields, hname, apply_ite withSortedFields]
  refine ite_congr rfl (fun _ => rfl) fun _ => ?_
  rw [withSortedFields, withSortedFields, List.map_append]
  rfl

variable {scope : Scope} {entries : Table}

theorem addEntries_sorted
    (hvisit : ∀ e ∈ entries, ∀ c : Catalog, addValue scope e.1 c.withSortedFields e.2.sorted =
      (addValue scope e.1 c e.2).withSortedFields) (c : Catalog) :
    addEntries scope c.withSortedFields (Table.sorted entries) =
      (addEntries scope c entries).withSortedFields := by
  rw [addEntries_eq_foldl, addEntries_eq_foldl, Table.sortByKey_sorted, List.foldl_map]
  refine List.foldl_rel (r := fun c d : Catalog => c = d.withSortedFields) rfl ?_
  rintro e he _ d rfl
  exact hvisit e (Table.mem_sortByKey.1 he) d

theorem addValue_sorted (scope : Scope) (key : String) (v : Value) (c : Catalog) :
    addValue scope key c.withSortedFields v.sorted = (addValue scope key c v).withSortedFields := by
  induction v using Value.record_induction generalizing scope key c with
  | leaf v hv =>
      rw [addValue_of_isLeaf _ _ _ hv, addValue_of_isLeaf _ _ _ ((Value.isLeaf_sorted v).trans hv)]
  | record v entries hrecord ih =>
      have hsorted : v.sorted.record? = some (Table.sorted entries) := by
        rw [Value.record?_sorted, hrecord, Option.map_some]
      rw [addValue_of_record? hrecord, addValue_of_record? hsorted, Value.suffix_sorted]
      dsimp only
      rw [contains_withSortedFields, apply_ite withSortedFields]
      refine ite_congr rfl (fun _ => rfl) fun _ => ?_
      rw [← addEntries_sorted fun e he c => ih e he _ e.1 c, withSortedFields_add]
      rfl

/-- Putting the keys in order first changes nothing but the order of the fields, which is made good
wherever they are used. -/
theorem collect_sorted (tree : Table) :
    collect tree.sorted = (collect tree).withSortedFields :=
  addEntries_sorted (fun e _ c => addValue_sorted .root e.1 e.2 c) empty

theorem sorted_withSortedFields (c : Catalog) :
    c.withSortedFields.sorted = c.sorted.map Schema.sorted :=
  (Sorting.map_sort Schema.sorted (fun _ _ => rfl) c.schemas).symm

end Catalog

namespace Build

variable {σ : Type} [FileSystem σ] (store : σ)

theorem element_sorted {keepsStrings : Bool} {v : Value}
    (hv : literal store v.sorted = literal store v) :
    element store keepsStrings v.sorted = element store keepsStrings v := by
  cases v with
  | string text => rfl
  | integer | float | boolean | moment | array | table | absent =>
      rw [element.eq_def, element.eq_def]
      exact hv

mutual

theorem literal_sorted : ∀ v : Value, literal store v.sorted = literal store v
  | .array [] => rfl
  | .array (first :: rest) => by
      rw [Value.sorted, Value.sortedItems, literal_cons, literal_cons, Value.isTable_sorted,
        Value.kind_sorted, Value.ofValue_sorted, element_sorted store (literal_sorted first),
        elements_sorted rest]
  | .table _ => by rw [Value.sorted, literal.eq_def, literal.eq_def]
  | .string _ | .integer _ | .float _ | .boolean _ | .moment _ | .absent => rfl

theorem elements_sorted {keepsStrings : Bool} : ∀ items : List Value,
    elements store keepsStrings (Value.sortedItems items) = elements store keepsStrings items
  | [] => rfl
  | v :: rest => by
      rw [Value.sortedItems, elements, elements, element_sorted store (literal_sorted v),
        elements_sorted rest]

end

theorem fields_sortByKey (scope : Scope) (entries : Table) :
    fields store scope (Table.sortByKey entries) = fields store scope entries := by
  rw [fields_eq_mapM, Table.sortByKey_sortByKey, fields_eq_mapM]

mutual

theorem field_sorted (scope : Scope) (key : String) : ∀ v : Value,
    field store scope key v.sorted = field store scope key v
  | .table entries => by
      rw [Value.sorted, field_table, field_table, fields_sortByKey, fields,
        steps_sorted (scope.child key .config) entries, fields]
  | .array items => by
      have hliteral := literal_sorted store (.array items)
      rw [Value.sorted] at hliteral
      rw [Value.sorted, field_array, field_array, Value.isTableArray_sortedItems,
        records_sorted (scope.child key .item) items, hliteral]
  | .string _ | .integer _ | .float _ | .boolean _ | .moment _ | .absent => rfl

theorem steps_sorted (scope : Scope) : ∀ entries : List (String × Value),
    steps store scope (Value.sortedEntries entries) = steps store scope entries
  | [] => rfl
  | (key, v) :: rest => by
      rw [Value.sortedEntries, steps, steps, field_sorted scope key v, steps_sorted scope rest]

theorem records_sorted (scope : Scope) : ∀ items : List Value,
    records store scope (Value.sortedItems items) = records store scope items
  | [] => rfl
  | .table entries :: rest => by
      rw [Value.sortedItems, Value.sorted, records_table, records_table, fields_sortByKey, fields,
        steps_sorted scope entries, records_sorted scope rest, fields]
  | .string _ :: rest | .integer _ :: rest | .float _ :: rest | .boolean _ :: rest
  | .moment _ :: rest | .array _ :: rest | .absent :: rest => by
      simp only [Value.sortedItems, Value.sorted]
      rw [records.eq_def, records.eq_def store scope (_ :: rest)]
      exact records_sorted scope rest

end

end Build

namespace Emitter

variable {σ : Type} [FileSystem σ] (e : Emitter) (store : σ)

theorem assignment_sorted (key : String) (v : Value) :
    assignment store key v.sorted = assignment store key v := by
  cases v with
  | array items =>
      cases items with
      | nil => rfl
      | cons first rest =>
          have hfield := Build.field_sorted store .root key (.array (first :: rest))
          have htype := Value.ofValue_sorted (.array (first :: rest))
          rw [Value.sorted, Value.sortedItems] at hfield htype ⊢
          simp only [assignment, hfield, htype]
  | table entries =>
      have hfield := Build.field_sorted store .root key (.table entries)
      rw [Value.sorted] at hfield ⊢
      simp only [assignment, hfield, Go.GoType.ofValue]
  | _ => rfl

theorem accessor_sorted (scope : Scope) (key : String) (v : Value) :
    e.accessor store scope key v.sorted = e.accessor store scope key v := by
  simp only [accessor_eq, fallback, Value.isTable_sorted, Build.field_sorted, Value.kind_sorted,
    Scope.fieldType_sorted]

theorem sortedFields_sorted (s : Schema) :
    s.sorted.sortedFields = s.sortedFields.map fun f => (f.1, f.2.sorted) :=
  Table.sortByKey_sorted s.fields

theorem methods_sorted (s : Schema) : e.methods store s.sorted = e.methods store s := by
  rw [methods, methods, sortedFields_sorted, List.mapM_map]
  refine ite_congr rfl (fun _ => rfl) fun _ => congrArg (List.mapM · s.sortedFields) ?_
  funext f
  exact e.accessor_sorted store s.scope f.1 f.2

theorem typeDeclaration_sorted (mode : Mode) (s : Schema) :
    typeDeclaration mode s.sorted = typeDeclaration mode s := by
  have hrecord : recordType s.sorted = recordType s := by
    rw [recordType, recordType, sortedFields_sorted, List.map_map]
    refine congrArg (Go.Declaration.record s.name) (List.map_congr_left fun f _ => ?_)
    exact congrArg (Go.Field.mk _) (s.scope.fieldType_sorted f.1 f.2)
  unfold typeDeclaration
  rw [hrecord]
  rfl

theorem staticValues_sorted (tree : Table) :
    staticValues store tree.sorted = staticValues store tree := by
  rw [staticValues, staticValues, Table.sortByKey_sorted, List.mapM_map]
  simp only [Function.comp_def, assignment_sorted]

theorem getterValues_sorted (tree : Table) :
    e.getterValues store tree.sorted = e.getterValues store tree := by
  simp only [getterValues, Table.sortByKey_sorted, List.filter_map, List.mapM_map, List.map_map,
    Function.comp_def, Value.isTable_sorted, accessor_sorted]

/-- What is emitted for a configuration is what is emitted for it with its keys in order. -/
theorem emit_sorted (tree : Table) :
    e.emit store tree.sorted (Catalog.collect tree.sorted) =
      e.emit store tree (Catalog.collect tree) := by
  have htypes : (Catalog.collect tree.sorted).sorted.map (typeDeclaration e.mode) =
      (Catalog.collect tree).sorted.map (typeDeclaration e.mode) := by
    rw [Catalog.collect_sorted, Catalog.sorted_withSortedFields, List.map_map]
    exact List.map_congr_left fun s _ => typeDeclaration_sorted e.mode s
  have hmethods : e.methodsOfAll store (Catalog.collect tree.sorted) =
      e.methodsOfAll store (Catalog.collect tree) := by
    unfold methodsOfAll
    rw [Catalog.collect_sorted, Catalog.sorted_withSortedFields, List.mapM_map]
    simp only [Function.comp_def, methods_sorted]
  have hvalues : e.values store tree.sorted = e.values store tree := by
    unfold values
    rw [staticValues_sorted, getterValues_sorted]
  have hduration : Value.entriesContainDuration tree.sorted = Value.entriesContainDuration tree :=
    Value.containsDuration_sorted (.table tree)
  simp only [emit_eq, file, htypes, hmethods, hvalues, hduration]

end Emitter

end TypedConfig
