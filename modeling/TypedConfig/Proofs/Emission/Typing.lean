import TypedConfig.Proofs.Emission.Imports
import TypedConfig.Proofs.Go.Typing

namespace TypedConfig

open Go (Declaration Field GoType Literal SourceFile ItemsHaveType FieldsHaveTypes)

namespace Value

mutual

def LeafFits : Value → GoType → Prop
  | .array (first :: rest), t =>
    if first.isTable then t.TakesNil
    else
      t.Takes (.slice (GoType.ofValue first)) ∧ first.LeafFits (GoType.ofValue first) ∧
        ElementsFit (GoType.ofValue first) rest
  | .array [], t | .table _, t | .moment _, t | .absent, t => t.TakesNil
  | v, t => t.Takes (GoType.ofValue v)

def ElementsFit (element : GoType) : List Value → Prop
  | [] => True
  | v :: rest =>
    ((v.isString ∧ element = .string) ∨ v.LeafFits element) ∧ ElementsFit element rest

end

mutual

/-- The value of a key can be written where the type is expected: the tables in it have record
types with fields for all that they hold. -/
def Fits (catalog : Catalog) (scope : Scope) (key : String) : Value → GoType → Prop
  | .table entries, t =>
    t.Takes (.named (scope.typeName key .config)) ∧
      ∃ s ∈ catalog.schemas, s.name = scope.typeName key .config ∧
        EntriesFit catalog s (scope.child key .config) entries
  | .array items, t =>
    if isTableArray (.array items) then
      t.Takes (.slice (.named (scope.typeName key .item))) ∧
        TablesFit catalog (scope.typeName key .item) (scope.child key .item) items
    else LeafFits (.array items) t
  | v, t => v.LeafFits t

def EntriesFit (catalog : Catalog) (s : Schema) (scope : Scope) : List (String × Value) → Prop
  | [] => True
  | (key, v) :: rest =>
    (∃ f ∈ s.fields, Naming.pascalCase f.1 = Naming.pascalCase key ∧
      v.Fits catalog scope key (s.fieldType f.1 f.2)) ∧ EntriesFit catalog s scope rest

def TablesFit (catalog : Catalog) (name : String) (scope : Scope) : List Value → Prop
  | [] => True
  | .table entries :: rest =>
    (∃ s ∈ catalog.schemas, s.name = name ∧ EntriesFit catalog s scope entries) ∧
      TablesFit catalog name scope rest
  | _ :: rest => TablesFit catalog name scope rest

end

end Value

def Table.Conforms (tree : Table) : Prop :=
  ∀ e ∈ tree, e.2.Fits (Catalog.collect tree) .root e.1 (Scope.root.fieldType e.1 e.2)

namespace Build

variable {σ : Type} [FileSystem σ] {store : σ} {before after : Progress} {ds : List Declaration}
  {l : Literal} {t : GoType}

theorem hasType_of_string {text : String} (h : Yields (string store text) before l after) :
    l.HasType ds t ↔ t.Takes (GoType.ofValue (.string text)) := by
  unfold string at h
  rw [GoType.ofValue, Value.stringKind]
  cases hm : Value.meaning text with
  | reference =>
      simp only [hm, yields_bind, yields_pure] at h
      obtain ⟨_, _, _, rfl, -⟩ := h
      rw [Literal.HasType]
      rfl
  | duration n =>
      simp only [hm, yields_bind, yields_pure] at h
      obtain ⟨_, _, _, rfl, -⟩ := h
      rw [Literal.HasType]
      rfl
  | plain =>
      simp only [hm, yields_pure] at h
      obtain ⟨rfl, -⟩ := h
      rw [Literal.HasType]
      rfl

theorem hasType_of_float {x : Binary64} (h : Yields (float x) before l after) :
    l.HasType ds t ↔ t.Takes .float64 := by
  unfold float at h
  cases x with
  | finite x =>
      obtain ⟨rfl, -⟩ := (yields_pure _ _).1 h
      rw [Literal.HasType]
  | nan | infinite =>
      simp only [yields_bind, yields_pure] at h
      obtain ⟨_, _, _, rfl, -⟩ := h
      rw [Literal.HasType]

theorem kind_eq_string_iff (v : Value) : v.kind = .string ↔ GoType.ofValue v = .string := by
  cases v with
  | string text =>
      rw [Value.kind, GoType.ofValue]
      obtain h | h | h := Value.stringKind_cases text <;> simp [h, GoType.ofStringKind]
  | array items =>
      cases items with
      | nil => simp [Value.kind, GoType.ofValue]
      | cons first rest => cases first <;> simp [Value.kind, GoType.ofValue]
  | _ => simp [Value.kind, GoType.ofValue]

/-- Strings are kept as they are where the elements of an array are plain strings. -/
theorem hasType_of_element {first v : Value}
    (hv : ∀ {before l after}, Yields (literal store v) before l after →
      (l.HasType ds (GoType.ofValue first) ↔ v.LeafFits (GoType.ofValue first)))
    (h : Yields (element store (first.kind == .string) v) before l after) :
    l.HasType ds (GoType.ofValue first) ↔
      (v.isString ∧ GoType.ofValue first = .string) ∨ v.LeafFits (GoType.ofValue first) := by
  rw [← kind_eq_string_iff]
  rw [element.eq_def] at h
  split at h
  · next text =>
    split at h
    · next hkeeps =>
      obtain ⟨rfl, -⟩ := (yields_pure _ _).1 h
      have hkind := eq_of_beq hkeeps
      simp [hkind, (kind_eq_string_iff first).1 hkind, Literal.HasType, GoType.Takes,
        Value.isString]
    · next hkeeps =>
      have hkind : first.kind ≠ .string := fun hkind => hkeeps (beq_iff_eq.2 hkind)
      simpa [hkind, Value.LeafFits] using hasType_of_string h
  · next hstring =>
    have hnot : v.isString = false :=
      Value.isString_eq_false hstring
    simpa [hnot] using hv h

mutual

theorem hasType_of_literal : ∀ (v : Value) {before l after} {t : GoType},
    Yields (literal store v) before l after → (l.HasType ds t ↔ v.LeafFits t)
  | .string text, before, l, after, t, h => by
      rw [literal.eq_def] at h
      exact hasType_of_string h
  | .integer n, before, l, after, t, h => by
      rw [literal.eq_def] at h
      obtain ⟨rfl, -⟩ := yields_integer h
      exact Iff.rfl
  | .float x, before, l, after, t, h => by
      rw [literal.eq_def] at h
      exact hasType_of_float h
  | .boolean _, before, l, after, t, h | .moment _, before, l, after, t, h
  | .array [], before, l, after, t, h | .table _, before, l, after, t, h
  | .absent, before, l, after, t, h => by
      rw [literal.eq_def] at h
      obtain ⟨rfl, -⟩ := (yields_pure _ _).1 h
      exact Iff.rfl
  | .array (first :: rest), before, l, after, t, h => by
      rw [literal_cons] at h
      rw [Value.LeafFits]
      split at h
      · next htable =>
        obtain ⟨rfl, -⟩ := (yields_pure _ _).1 h
        rw [if_pos htable, Literal.HasType]
      · next htable =>
        simp only [yields_bind, yields_pure] at h
        obtain ⟨l, _, hl, ls, _, hls, rfl, -⟩ := h
        have hfirst : (first.isString ∧ GoType.ofValue first = .string) →
            first.LeafFits (GoType.ofValue first) := by
          cases first with
          | string text => exact fun _ => .inl rfl
          | _ => exact fun h => absurd h.1 Bool.false_ne_true
        rw [if_neg htable, Literal.HasType, ItemsHaveType,
          hasType_of_element (hasType_of_literal first) hl, or_iff_right_of_imp hfirst,
          itemsHaveType_of_elements rest hls]

theorem itemsHaveType_of_elements {first : Value} : ∀ (vs : List Value) {before ls after},
    Yields (elements store (first.kind == .string) vs) before ls after →
      (ItemsHaveType ds (GoType.ofValue first) ls ↔ Value.ElementsFit (GoType.ofValue first) vs)
  | [], before, ls, after, h => by
      rw [elements] at h
      obtain ⟨rfl, -⟩ := (yields_pure _ _).1 h
      exact Iff.rfl
  | v :: rest, before, ls, after, h => by
      rw [elements] at h
      simp only [yields_bind, yields_pure] at h
      obtain ⟨l, _, hl, ls, _, hls, rfl, -⟩ := h
      rw [ItemsHaveType, Value.ElementsFit]
      exact and_congr (hasType_of_element (hasType_of_literal v) hl)
        (itemsHaveType_of_elements rest hls)

end

def Declares (ds : List Declaration) (catalog : Catalog) : Prop :=
  ∀ name declared, .record name declared ∈ ds ↔
    ∃ s ∈ catalog.schemas, Emitter.recordType s = .record name declared

variable {catalog : Catalog}

theorem Declares.exists_iff (hds : Declares ds catalog) (name : String) (P : List Field → Prop) :
    (∃ declared, .record name declared ∈ ds ∧ P declared) ↔
      ∃ s ∈ catalog.schemas, s.name = name ∧
        P (s.sortedFields.map fun f => ⟨Naming.pascalCase f.1, s.fieldType f.1 f.2⟩) := by
  constructor
  · rintro ⟨declared, hmem, hP⟩
    obtain ⟨s, hs, heq⟩ := (hds name declared).1 hmem
    cases heq
    exact ⟨s, hs, rfl, hP⟩
  · rintro ⟨s, hs, rfl, hP⟩
    exact ⟨_, (hds _ _).2 ⟨s, hs, rfl⟩, hP⟩

/-- An array of tables starts with one. -/
theorem Declares.exists_of_tablesFit (hds : Declares ds catalog) {items : List Value}
    (htables : Value.isTableArray (.array items)) (name : String) (scope : Scope)
    (h : Value.TablesFit catalog name scope items) : ∃ declared, .record name declared ∈ ds := by
  cases items with
  | nil => cases htables
  | cons first rest =>
    cases first with
    | table entries =>
        obtain ⟨s, hs, rfl, -⟩ := h.1
        exact ⟨_, (hds _ _).2 ⟨s, hs, rfl⟩⟩
    | _ => cases htables

theorem isRecord_of_field {scope : Scope} {key : String} {v : Value}
    (h : Yields (field store scope key v) before l after) : l.isRecord = !v.isLeaf := by
  rw [field.eq_def] at h
  split at h
  · simp only [yields_bind, yields_pure] at h
    obtain ⟨_, _, _, rfl, -⟩ := h
    rfl
  · next items =>
    split at h
    · next htables =>
      simp only [yields_bind, yields_pure] at h
      obtain ⟨_, _, _, rfl, -⟩ := h
      simp [Value.isLeaf, htables, Literal.isRecord]
    · next htables =>
      rw [isRecord_of_literal h]
      simp [Value.isLeaf, htables, Value.isTable]
  · next htable harray =>
    rw [isRecord_of_literal h]
    cases v <;> first | rfl | exact absurd rfl (htable _) | exact absurd rfl (harray _)

theorem exists_field_iff (s : Schema) (name : String) (P : GoType → Prop) :
    (∃ f ∈ s.sortedFields.map fun f => (⟨Naming.pascalCase f.1, s.fieldType f.1 f.2⟩ : Field),
        f.name = name ∧ P f.type) ↔
      ∃ f ∈ s.fields, Naming.pascalCase f.1 = name ∧ P (s.fieldType f.1 f.2) := by
  have hmem (f : String × Value) : f ∈ s.sortedFields ↔ f ∈ s.fields :=
    (Sorting.sort_perm Table.keyLe s.fields).mem_iff
  simp [hmem]

theorem entriesFit_iff {s : Schema} {scope : Scope} {entries : Table} :
    Value.EntriesFit catalog s scope entries ↔ ∀ e ∈ entries, ∃ f ∈ s.fields,
      Naming.pascalCase f.1 = Naming.pascalCase e.1 ∧
        e.2.Fits catalog scope e.1 (s.fieldType f.1 f.2) := by
  induction entries with
  | nil => simp [Value.EntriesFit]
  | cons entry entries ih => rw [Value.EntriesFit, ih, List.forall_mem_cons]

section

variable {scope : Scope} {s : Schema} {entries : Table} {fs : List (String × Literal)}
  (hentries : ∀ e ∈ entries, ∀ {before l after t},
    Yields (field store scope e.1 e.2) before l after →
      (l.HasType ds t ↔ e.2.Fits catalog scope e.1 t))

include hentries

theorem fieldsHaveTypes_of_mapM
    (h : Yields (entries.mapM (namedField store scope)) before fs after) :
    FieldsHaveTypes ds (s.sortedFields.map fun f => ⟨Naming.pascalCase f.1, s.fieldType f.1 f.2⟩)
      fs ↔ Value.EntriesFit catalog s scope entries := by
  induction entries generalizing before after fs with
  | nil =>
      rw [List.mapM_nil] at h
      obtain ⟨rfl, -⟩ := (yields_pure _ _).1 h
      exact Iff.rfl
  | cons entry entries ih =>
      obtain ⟨hentry, hentries⟩ := List.forall_mem_cons.1 hentries
      rw [List.mapM_cons] at h
      simp only [namedField, yields_bind, yields_pure] at h
      obtain ⟨_, _, ⟨l, _, hl, rfl, rfl⟩, fs, _, hfs, rfl, -⟩ := h
      rw [FieldsHaveTypes, Value.EntriesFit, exists_field_iff s _ (l.HasType ds),
        ih hentries hfs]
      simp only [hentry hl]

theorem fieldsHaveTypes_of_fields (h : Yields (fields store scope entries) before fs after) :
    FieldsHaveTypes ds (s.sortedFields.map fun f => ⟨Naming.pascalCase f.1, s.fieldType f.1 f.2⟩)
      fs ↔ Value.EntriesFit catalog s scope entries := by
  rw [fields_eq_mapM] at h
  rw [fieldsHaveTypes_of_mapM (fun e he => hentries e (Table.mem_sortByKey.1 he)) h,
    entriesFit_iff, entriesFit_iff]
  simp only [Table.mem_sortByKey]

end

mutual

theorem hasType_of_field (hds : Declares ds catalog) {scope : Scope} (key : String) :
    ∀ (v : Value) {before l after} {t : GoType}, Yields (field store scope key v) before l after →
      (l.HasType ds t ↔ v.Fits catalog scope key t)
  | .table entries, before, l, after, t, h => by
      rw [field_table] at h
      simp only [yields_bind, yields_pure] at h
      obtain ⟨fs, _, hfs, rfl, -⟩ := h
      rw [Literal.HasType, Value.Fits, hds.exists_iff]
      simp only [fieldsHaveTypes_of_fields (hasType_of_eachField hds entries) hfs]
  | .array items, before, l, after, t, h => by
      rw [field_array] at h
      rw [Value.Fits]
      split at h
      · next htables =>
        simp only [yields_bind, yields_pure] at h
        obtain ⟨ls, _, hls, rfl, -⟩ := h
        have hdeclared := hds.exists_of_tablesFit htables (scope.typeName key .item)
          (scope.child key .item)
        rw [if_pos htables, Literal.HasType, itemsHaveType_of_records hds items hls,
          and_iff_right_of_imp hdeclared]
      · next htables =>
        rw [if_neg htables]
        exact hasType_of_literal _ h
  | .string _, before, l, after, t, h | .integer _, before, l, after, t, h
  | .float _, before, l, after, t, h | .boolean _, before, l, after, t, h
  | .moment _, before, l, after, t, h | .absent, before, l, after, t, h => by
      rw [field.eq_def] at h
      exact hasType_of_literal _ h

theorem hasType_of_eachField (hds : Declares ds catalog) {scope : Scope} :
    ∀ entries : List (String × Value), ∀ e ∈ entries, ∀ {before l after} {t : GoType},
      Yields (field store scope e.1 e.2) before l after →
        (l.HasType ds t ↔ e.2.Fits catalog scope e.1 t)
  | [] => List.forall_mem_nil _
  | (key, v) :: rest =>
      List.forall_mem_cons.2 ⟨hasType_of_field hds key v, hasType_of_eachField hds rest⟩

theorem itemsHaveType_of_records (hds : Declares ds catalog) {scope : Scope} {name : String} :
    ∀ (items : List Value) {before ls after}, Yields (records store scope items) before ls after →
      (ItemsHaveType ds (.named name) ls ↔ Value.TablesFit catalog name scope items)
  | [], before, ls, after, h => by
      rw [records.eq_def] at h
      obtain ⟨rfl, -⟩ := (yields_pure _ _).1 h
      exact Iff.rfl
  | .table entries :: rest, before, ls, after, h => by
      rw [records_table] at h
      simp only [yields_bind, yields_pure] at h
      obtain ⟨fs, _, hfs, ls, _, hls, rfl, -⟩ := h
      rw [ItemsHaveType, Literal.HasType, Value.TablesFit, itemsHaveType_of_records hds rest hls]
      refine and_congr ?_ Iff.rfl
      simp only [GoType.named.injEq, exists_eq_left', hds.exists_iff,
        fieldsHaveTypes_of_fields (hasType_of_eachField hds entries) hfs]
  | .string _ :: rest, before, ls, after, h | .integer _ :: rest, before, ls, after, h
  | .float _ :: rest, before, ls, after, h | .boolean _ :: rest, before, ls, after, h
  | .moment _ :: rest, before, ls, after, h | .array _ :: rest, before, ls, after, h
  | .absent :: rest, before, ls, after, h => by
      rw [records.eq_def] at h
      exact itemsHaveType_of_records hds rest h

end

end Build

namespace Emitter

open Build (Yields)

variable {σ : Type} [FileSystem σ] {store : σ} {before after : Progress} {catalog : Catalog}
  {ds : List Declaration}

theorem fits_iff_exists {scope : Scope} {key : String} {v : Value} (hv : v.isLeaf = false) :
    (∃ t, v.Fits catalog scope key t) ↔ v.Fits catalog scope key (scope.fieldType key v) := by
  refine ⟨?_, fun h => ⟨_, h⟩⟩
  rintro ⟨t, h⟩
  cases v with
  | table entries => exact ⟨.inl rfl, h.2⟩
  | array items =>
      cases items with
      | nil => cases hv
      | cons first rest =>
        cases first with
        | table entries => exact ⟨.inl rfl, h.2⟩
        | _ => cases hv
  | _ => cases hv

/-- The literal of a table or an array of tables states the type itself. -/
theorem typed_variable (hds : Build.Declares ds catalog) {key : String} {v : Value} {l : Literal}
    (h : Yields (Build.field store .root key v) before l after) {type : Option GoType}
    (htype : type = if l.isRecord then none else some (GoType.ofValue v)) :
    (∃ t, (∀ stated ∈ type, t = stated) ∧ l.HasType ds t) ↔
      v.Fits catalog .root key (Scope.root.fieldType key v) := by
  rw [htype, Build.isRecord_of_field h]
  simp only [Build.hasType_of_field hds key v h]
  cases hv : v.isLeaf with
  | true => simp [Scope.fieldType_of_isLeaf _ _ hv]
  | false => simpa using fits_iff_exists hv

theorem typed_assignment (hds : Build.Declares ds catalog) {key : String} {v : Value}
    {member : Go.Variable} (h : Yields (assignment store key v) before member after) :
    (∀ l ∈ member.value, ∃ t, (∀ stated ∈ member.type, t = stated) ∧ l.HasType ds t) ↔
      v.Fits catalog .root key (Scope.root.fieldType key v) := by
  unfold assignment at h
  split at h
  · obtain ⟨rfl, -⟩ := (Build.yields_pure _ _).1 h
    exact iff_of_true (by simp) (.inr ⟨_, rfl⟩)
  · simp only [Build.yields_bind, Build.yields_pure] at h
    obtain ⟨l, _, hl, rfl, -⟩ := h
    simp only [Option.mem_some_iff, forall_eq']
    refine typed_variable hds hl ?_
    cases l <;> rfl

theorem declares_emit {package variablePrefix : String} {tree : Table} {f : SourceFile}
    (h : Yields (emit ⟨.static, package, variablePrefix⟩ store tree catalog) before f after) :
    Build.Declares f.declarations catalog ∧ ∃ members b c,
      Yields ((Table.sortByKey tree).mapM fun e => assignment store e.1 e.2) b members c ∧
      ∀ ms, .group ms ∈ f.declarations ↔ ms = members := by
  have hperm := catalog.sorted_perm
  unfold emit at h
  obtain ⟨methods, between, hmethods, h⟩ := (Build.yields_bind _ _ _).1 h
  obtain ⟨rfl, rfl⟩ := (Build.yields_pure _ _).1 hmethods
  obtain ⟨values, last, hvalues, h⟩ := (Build.yields_bind _ _ _).1 h
  simp only [staticValues, Build.yields_bind, Build.yields_pure] at hvalues
  obtain ⟨members, _, hmembers, rfl, rfl⟩ := hvalues
  obtain ⟨hds, -⟩ := mem_imports (e := ⟨.static, package, variablePrefix⟩) h
  rw [hds]
  refine ⟨fun name declared => ?_, members, _, _, hmembers, fun ms => ?_⟩
  · simp [typeDeclaration, hperm.mem_iff]
  · simp [typeDeclaration, recordType]

/-- The values of a file have the types that it declares exactly if the configuration fits the
types that were collected from it. -/
theorem valuesTyped_iff_conforms (package variablePrefix : String) (store : FileStore)
    (loader : Loader) (tree : Table) {f : SourceFile} {after : Progress}
    (h : Yields (emit ⟨.static, package, variablePrefix⟩ store tree (Catalog.collect tree))
      ⟨loader, []⟩ f after) : f.ValuesTyped ↔ tree.Conforms := by
  obtain ⟨hds, members, _, _, hmembers, hgroup⟩ := declares_emit h
  have hmem (e : String × Value) : e ∈ tree ↔ e ∈ Table.sortByKey tree :=
    Table.mem_sortByKey.symm
  unfold SourceFile.ValuesTyped Table.Conforms
  simp only [hgroup, forall_eq, hmem]
  have htyped := Build.yields_mapM hmembers
  generalize Table.sortByKey tree = entries at htyped ⊢
  clear hgroup hmembers
  induction htyped with
  | nil => simp
  | cons hentry _ ih =>
      obtain ⟨_, _, hentry⟩ := hentry
      rw [List.forall_mem_cons, List.forall_mem_cons]
      exact and_congr (typed_assignment hds hentry) ih

def twoItems (key : String) : Table :=
  [("s", .array [.table [("a", .boolean true)], .table [(key, .boolean false)]])]

def twoItemsFile (name : String) : SourceFile :=
  ⟨"config", [], [.record "SItem" [⟨"A", .bool⟩], .group [⟨"S", none,
    some (.records "SItem" [.record none [("A", .boolean true)],
      .record none [(name, .boolean false)]])⟩]]⟩

theorem yields_twoItems (store : FileStore) (loader : Loader) (key : String) :
    Yields (emit ⟨.static, "config", "CONFIG"⟩ store (twoItems key)
      (Catalog.collect (twoItems key))) ⟨loader, []⟩ (twoItemsFile (Naming.pascalCase key))
      ⟨loader, []⟩ := by
  have hfields (scope : Scope) (key : String) (b : Bool) :
      Build.fields store scope [(key, .boolean b)] =
        pure [(Naming.pascalCase key, .boolean b)] := by
    have hfield : Build.field store scope key (.boolean b) = pure (.boolean b) := by
      rw [Build.field.eq_def]
      exact Build.literal.eq_def store (.boolean b)
    rw [Build.fields_eq_mapM]
    change List.mapM _ [(key, Value.boolean b)] = _
    simp only [List.mapM_cons, List.mapM_nil, Build.namedField, hfield]
    rfl
  have hfield : Build.field store .root "s"
      (.array [.table [("a", .boolean true)], .table [(key, .boolean false)]]) =
        pure (.records "SItem" [.record none [("A", .boolean true)],
          .record none [(Naming.pascalCase key, .boolean false)]]) := by
    have htables : Value.isTableArray
        (.array [.table [("a", .boolean true)], .table [(key, .boolean false)]]) := rfl
    rw [Build.field_array, if_pos htables, Build.records_table, Build.records_table, hfields,
      hfields, Build.records]
    rfl
  have hsorted : Table.sortByKey (twoItems key) =
      [("s", .array [.table [("a", .boolean true)], .table [(key, .boolean false)]])] := rfl
  have hvalues : staticValues store (twoItems key) =
      pure [.group [⟨"S", none, some (.records "SItem" [.record none [("A", .boolean true)],
        .record none [(Naming.pascalCase key, .boolean false)]])⟩]] := by
    simp only [staticValues, hsorted, List.mapM_cons, List.mapM_nil, assignment, hfield]
    rfl
  rw [emit]
  simp only [hvalues]
  rfl

theorem valuesTyped_twoItems :
    Yields (emit ⟨.static, "config", "CONFIG"⟩ (⟨[], [], [], 0⟩ : FileStore) (twoItems "a")
        (Catalog.collect (twoItems "a"))) ⟨⟨none, 0, []⟩, []⟩ (twoItemsFile "A")
        ⟨⟨none, 0, []⟩, []⟩ ∧
      (twoItemsFile "A").ValuesTyped := by
  have h := yields_twoItems (⟨[], [], [], 0⟩ : FileStore) ⟨none, 0, []⟩ "a"
  have hconforms : (twoItems "a").Conforms := by
    have hcatalog : Catalog.collect (twoItems "a") =
        ⟨[⟨"SItem", ["s"], [("a", .boolean true)], true⟩]⟩ := rfl
    have hname : Scope.root.typeName "s" .item = "SItem" := rfl
    rw [Table.Conforms, hcatalog]
    refine List.forall_mem_singleton.2 ?_
    simp [Value.Fits, Value.isTableArray, Value.TablesFit, Value.EntriesFit, Value.LeafFits, hname,
      GoType.Takes, Schema.fieldType, Scope.fieldType, Value.kind, GoType.ofValue]
  exact ⟨h, (valuesTyped_iff_conforms _ _ _ _ _ h).2 hconforms⟩

/-- A second table may have a field that the record type, taken from the first, has not. -/
theorem not_all_values_typed : ¬ ∀ (package variablePrefix : String) (store : FileStore)
    (loader : Loader) (tree : Table) (f : SourceFile) (after : Progress),
    Yields (emit ⟨.static, package, variablePrefix⟩ store tree (Catalog.collect tree))
      ⟨loader, []⟩ f after → f.ValuesTyped := by
  intro h
  have htyped := h _ _ _ _ _ _ _ (yields_twoItems (⟨[], [], [], 0⟩ : FileStore) ⟨none, 0, []⟩ "b")
  have hname : Naming.pascalCase "b" = "B" := rfl
  simp [SourceFile.ValuesTyped, twoItemsFile, hname, Literal.HasType, ItemsHaveType,
    FieldsHaveTypes] at htyped

end Emitter

end TypedConfig
