import TypedConfig.Proofs.Emission.Imports
import TypedConfig.Proofs.Go.Signature
import TypedConfig.Proofs.Schema.Closure
import Mathlib.Data.List.Flatten

namespace TypedConfig

open Go (Declaration Field GoType Signature SourceFile)

/-- No two of the names that are made from the keys of a configuration meet where they would be
declared side by side: the names of values, those of a value and a record type, and those of the
fields of one record type. -/
structure Table.NamesApart (tree : Table) : Prop where
  values : (tree.map fun entry => Naming.pascalCase entry.1).Nodup
  types : ∀ entry ∈ tree, ¬ (Catalog.collect tree).contains (Naming.pascalCase entry.1)
  fields : ∀ s ∈ (Catalog.collect tree).schemas,
    (s.fields.map fun field => Naming.pascalCase field.1).Nodup

namespace Emitter

open Build (Yields)

variable {σ : Type} [FileSystem σ] {store : σ} {before after : Progress} {tree : Table}
  {catalog : Catalog}

def typeFields (mode : Mode) (s : Schema) : List Field :=
  if mode = .static ∨ s.inArray then
    s.sortedFields.map fun f => ⟨Naming.pascalCase f.1, s.fieldType f.1 f.2⟩
  else []

def methodSignatures (mode : Mode) (s : Schema) : List Signature :=
  match mode with
  | .static => []
  | .getter =>
    if s.inArray then []
    else s.sortedFields.map fun f => .function (some s.name) (Naming.pascalCase f.1)

def valueSignatures (mode : Mode) (tree : Table) : List Signature :=
  match mode with
  | .static => [.variables (tree.map fun e => Naming.pascalCase e.1)]
  | .getter =>
    (tree.filter (!·.2.isTable)).map (fun e => .function none (Naming.pascalCase e.1)) ++
      if (tree.filter (·.2.isTable)).isEmpty then []
      else [.variables ((tree.filter (·.2.isTable)).map fun e => Naming.pascalCase e.1)]

theorem signature_typeDeclaration (mode : Mode) (s : Schema) :
    (typeDeclaration mode s).signature = .type s.name (typeFields mode s) := by
  unfold typeDeclaration typeFields
  cases mode with
  | static => rfl
  | getter =>
      cases harray : s.inArray with
      | true => simp [recordType, Declaration.signature]
      | false => simp [Declaration.signature]

theorem signature_of_accessor {e : Emitter} {scope : Scope} {key : String} {v : Value}
    {d : Declaration} (h : Yields (e.accessor store scope key v) before d after) :
    d.signature = .function scope.name (Naming.pascalCase key) := by
  unfold accessor at h
  split at h
  · simp only [Build.yields_bind, Build.yields_pure] at h
    obtain ⟨_, _, _, _, _, _, rfl, -⟩ := h
    rfl
  · simp only [Build.yields_bind, Build.yields_pure] at h
    obtain ⟨_, _, _, _, _, _, rfl, -⟩ := h
    rfl

theorem signatures_of_methods {e : Emitter} {s : Schema} {ds : List Declaration}
    (h : Yields (e.methods store s) before ds after) :
    ds.map Declaration.signature = methodSignatures .getter s := by
  unfold methods at h
  unfold methodSignatures
  split at h
  · next harray =>
    obtain ⟨rfl, -⟩ := (Build.yields_pure _ _).1 h
    simp [harray]
  · next harray =>
    simp only [if_neg harray]
    exact Build.map_eq_of_yields_mapM signature_of_accessor h

theorem name_of_assignment {key : String} {v : Value} {member : Go.Variable}
    (h : Yields (assignment store key v) before member after) :
    member.name = Naming.pascalCase key := by
  unfold assignment at h
  split at h
  · obtain ⟨rfl, -⟩ := (Build.yields_pure _ _).1 h
    rfl
  · simp only [Build.yields_bind, Build.yields_pure] at h
    obtain ⟨_, _, _, rfl, -⟩ := h
    rfl

theorem signatures_of_staticValues {ds : List Declaration}
    (h : Yields (staticValues store tree) before ds after) :
    ds.map Declaration.signature = valueSignatures .static (Table.sortByKey tree) := by
  simp only [staticValues, Build.yields_bind, Build.yields_pure] at h
  obtain ⟨members, _, hmembers, rfl, -⟩ := h
  have hnames := Build.map_eq_of_yields_mapM (g := Go.Variable.name)
    (k := fun entry : String × Value => Naming.pascalCase entry.1) name_of_assignment hmembers
  simp [valueSignatures, Declaration.signature, hnames]

theorem signatures_of_getterValues {e : Emitter} {ds : List Declaration}
    (h : Yields (e.getterValues store tree) before ds after) :
    ds.map Declaration.signature = valueSignatures .getter (Table.sortByKey tree) := by
  simp only [getterValues, Build.yields_bind, Build.yields_pure] at h
  obtain ⟨accessors, _, haccessors, rfl, -⟩ := h
  have hleaves := Build.map_eq_of_yields_mapM (g := Declaration.signature)
    (k := fun entry : String × Value => .function none (Naming.pascalCase entry.1))
    signature_of_accessor haccessors
  rw [List.map_append, hleaves, valueSignatures, List.isEmpty_map]
  refine congrArg (_ ++ ·) ?_
  split
  · rfl
  · simp [Declaration.signature]

theorem signatures_emit {e : Emitter} {f : SourceFile}
    (h : Yields (e.emit store tree catalog) before f after) :
    f.signatures = catalog.sorted.map (fun s => .type s.name (typeFields e.mode s)) ++
      catalog.sorted.flatMap (methodSignatures e.mode) ++
        valueSignatures e.mode (Table.sortByKey tree) := by
  obtain ⟨methods, values, _, _, hmethods, hvalues, -, hds⟩ := parts_of_emit h
  have hmethods : methods.flatten.map Declaration.signature =
      catalog.sorted.flatMap (methodSignatures e.mode) := by
    unfold methodsOfAll at hmethods
    cases hmode : e.mode with
    | static =>
        simp only [hmode] at hmethods
        obtain ⟨rfl, -⟩ := (Build.yields_pure _ _).1 hmethods
        simp [methodSignatures]
    | getter =>
        simp only [hmode] at hmethods
        rw [List.map_flatten, Build.map_eq_of_yields_mapM signatures_of_methods hmethods]
        rfl
  have hvalues : values.map Declaration.signature =
      valueSignatures e.mode (Table.sortByKey tree) := by
    unfold Emitter.values at hvalues
    cases hmode : e.mode with
    | static =>
        simp only [hmode] at hvalues
        exact signatures_of_staticValues hvalues
    | getter =>
        simp only [hmode] at hvalues
        exact signatures_of_getterValues hvalues
  rw [SourceFile.signatures, hds, List.map_append, List.map_append, hmethods, hvalues, List.map_map]
  simp only [Function.comp_def, signature_typeDeclaration]

theorem recordName?_ofValue (v : Value) : (GoType.ofValue v).recordName? = none := by
  fun_induction GoType.ofValue v with
  | case1 text =>
      unfold GoType.ofStringKind
      split <;> rfl
  | case7 first rest ih => exact ih
  | _ => rfl

theorem recordName?_fieldType {scope : Scope} {key name : String} {v : Value}
    (h : name ∈ (scope.fieldType key v).recordName?) :
    v.record?.isSome ∧ scope.typeName key v.suffix = name := by
  cases hrecord : v.record?.isSome with
  | true =>
      obtain htype | htype : _ ∨ _ := Scope.fieldType_of_record? hrecord
      · rw [htype] at h
        exact ⟨rfl, Option.some.inj h⟩
      · rw [htype] at h
        exact ⟨rfl, Option.some.inj h⟩
  | false =>
      have hleaf : v.isLeaf := by
        rw [Value.isLeaf_eq]
        exact Option.isSome_eq_false_iff.1 hrecord
      rw [Scope.fieldType_of_isLeaf scope key hleaf, recordName?_ofValue] at h
      cases h

theorem exists_of_mem_methodSignatures {mode : Mode} {s : Schema} {signature : Signature}
    (h : signature ∈ methodSignatures mode s) :
    ∃ name, signature = .function (some s.name) name := by
  unfold methodSignatures at h
  split at h
  · cases h
  · split at h
    · cases h
    · obtain ⟨f, -, rfl⟩ := List.mem_map.1 h
      exact ⟨_, rfl⟩

theorem exists_of_mem_valueSignatures {mode : Mode} {signature : Signature}
    (h : signature ∈ valueSignatures mode tree) :
    (∃ name, signature = .function none name) ∨ ∃ names, signature = .variables names := by
  unfold valueSignatures at h
  split at h
  · exact .inr ⟨_, List.mem_singleton.1 h⟩
  · obtain h | h := List.mem_append.1 h
    · obtain ⟨f, -, rfl⟩ := List.mem_map.1 h
      exact .inl ⟨_, rfl⟩
    · split at h
      · cases h
      · exact .inr ⟨_, List.mem_singleton.1 h⟩

section Emitted

variable {e : Emitter} {f : SourceFile} (h : Yields (e.emit store tree catalog) before f after)

include h

/-- Only types have fields. -/
theorem forall_fields_iff {P : List Field → Prop} (hnil : P []) :
    (∀ signature ∈ f.signatures, P signature.fields) ↔
      ∀ s ∈ catalog.schemas, P (typeFields e.mode s) := by
  have hmethods : ∀ signature ∈ catalog.sorted.flatMap (methodSignatures e.mode),
      P signature.fields := by
    intro signature hmem
    obtain ⟨s, -, hmem⟩ := List.mem_flatMap.1 hmem
    obtain ⟨name, rfl⟩ := exists_of_mem_methodSignatures hmem
    exact hnil
  have hvalues : ∀ signature ∈ valueSignatures e.mode (Table.sortByKey tree),
      P signature.fields := by
    intro signature hmem
    obtain ⟨name, rfl⟩ | ⟨names, rfl⟩ := exists_of_mem_valueSignatures hmem
    · exact hnil
    · exact hnil
  rw [signatures_emit h, List.forall_mem_append, List.forall_mem_append, and_iff_left hvalues,
    and_iff_left hmethods, List.forall_mem_map]
  simp only [Catalog.mem_sorted]
  rfl

theorem type_mem_signatures {name : String} (hname : catalog.contains name) :
    ∃ fields, .type name fields ∈ f.signatures := by
  obtain ⟨s, hs, rfl⟩ := Catalog.contains_iff.1 hname
  refine ⟨typeFields e.mode s, ?_⟩
  rw [signatures_emit h]
  refine List.mem_append_left _ (List.mem_append_left _ (List.mem_map.2 ⟨s, ?_, rfl⟩))
  exact Catalog.mem_sorted.2 hs

/-- Where all record types are closed in the catalog, so are those of the file. -/
theorem typesDeclared_of_closed (hclosed : ∀ s ∈ catalog.schemas, s.ClosedIn catalog) :
    f.TypesDeclared := by
  refine (forall_fields_iff h (P := fun fields => ∀ field ∈ fields,
    ∀ name ∈ field.type.recordName?, ∃ fields, .type name fields ∈ f.signatures) (by simp)).2 ?_
  intro s hs field hfield name hname
  have hentry : ∃ entry ∈ s.fields, s.fieldType entry.1 entry.2 = field.type := by
    unfold typeFields at hfield
    split at hfield
    · obtain ⟨entry, hentry, rfl⟩ := List.mem_map.1 hfield
      exact ⟨entry, Schema.mem_sortedFields.1 hentry, rfl⟩
    · cases hfield
  obtain ⟨entry, hentry, htype⟩ := hentry
  rw [← htype] at hname
  obtain ⟨hrecord, rfl⟩ := recordName?_fieldType hname
  exact type_mem_signatures h (hclosed s hs entry hentry hrecord)

end Emitted

/-- A field that holds a table or an array of tables has a record type that is collected, from
whichever path its name was met first. So the types of an emitted file refer to types that it
declares. -/
theorem fields_closed (tree : Table) :
    (∀ s ∈ (Catalog.collect tree).schemas, ∀ entry ∈ s.fields,
      entry.2.kind = .table ∨ entry.2.kind = .tableArray →
        ∃ name ∈ (Catalog.collect tree).names, s.fieldType entry.1 entry.2 = .named name ∨
          s.fieldType entry.1 entry.2 = .slice (.named name)) ∧
    ∀ (e : Emitter) (store : FileStore) (before after : Progress) (f : SourceFile),
      Yields (e.emit store tree (Catalog.collect tree)) before f after → f.TypesDeclared := by
  have hclosed := Catalog.closed_collect tree
  refine ⟨fun s hs entry hentry hkind => ?_, fun e store before after f h => ?_⟩
  · have hrecord := Value.isSome_record?_of_kind hkind
    exact ⟨_, Catalog.mem_names.2 (hclosed s hs entry hentry hrecord),
      Scope.fieldType_of_record? hrecord⟩
  · exact typesDeclared_of_closed h hclosed

def sharedName : Table :=
  [("a", .table [("b_c", .table [("d", .table [])])]),
    ("a_b", .table [("c", .table [("e", .table [])])])]

def sharedNameFile : SourceFile :=
  ⟨"config", [], [.record "ABCConfig" [⟨"D", .named "ABCDConfig"⟩], .record "ABCDConfig" [],
    .record "ABConfig" [⟨"C", .named "ABCConfig"⟩], .record "AConfig" [⟨"BC", .named "ABCConfig"⟩],
    .group [⟨"A", none, some (.record (some "AConfig") [("BC", .record (some "ABCConfig")
        [("D", .record (some "ABCDConfig") [])])])⟩,
      ⟨"AB", none, some (.record (some "ABConfig") [("C", .record (some "ABCConfig")
        [("E", .record (some "ABCEConfig") [])])])⟩]]⟩

theorem yields_sharedName (store : FileStore) (loader : Loader) :
    Yields (emit ⟨.static, "config", "CONFIG"⟩ store sharedName (Catalog.collect sharedName))
      ⟨loader, []⟩ sharedNameFile ⟨loader, []⟩ := by
  have hsorted : Table.sortByKey sharedName =
      [("a", .table [("b_c", .table [("d", .table [])])]),
        ("a_b", .table [("c", .table [("e", .table [])])])] := rfl
  have hsingle (key : String) (v : Value) : Table.sortByKey [(key, v)] = [(key, v)] := rfl
  have hnone : Table.sortByKey ([] : Table) = [] := rfl
  rw [emit]
  simp only [staticValues, hsorted, List.mapM_cons, List.mapM_nil, assignment, Build.field_table,
    Build.fields_eq_mapM, hsingle, hnone, Build.namedField]
  rfl

theorem fields_closed_sharedName :
    (∃ s ∈ (Catalog.collect sharedName).schemas, s.name = "ABConfig" ∧
        ∃ name ∈ (Catalog.collect sharedName).names,
          s.fieldType "c" (.table [("e", .table [])]) = .named name ∨
            s.fieldType "c" (.table [("e", .table [])]) = .slice (.named name)) ∧
      sharedNameFile.TypesDeclared := by
  have hs : ⟨"ABConfig", ["a_b"], [("c", .table [("e", .table [])])], false⟩ ∈
      (Catalog.collect sharedName).schemas := List.mem_of_getElem? (i := 3) rfl
  obtain ⟨hfields, hdeclared⟩ := fields_closed sharedName
  refine ⟨⟨_, hs, rfl, ?_⟩, ?_⟩
  · exact hfields _ hs _ (List.mem_singleton_self _) (.inl rfl)
  · exact hdeclared _ (⟨[], [], [], 0⟩ : FileStore) _ _ _ (yields_sharedName _ ⟨none, 0, []⟩)

theorem names_valueSignatures_perm (mode : Mode) (tree : Table) :
    ((valueSignatures mode tree).flatMap Signature.names).Perm
      (tree.map fun entry => Naming.pascalCase entry.1) := by
  cases mode with
  | static => simp [valueSignatures, Signature.names]
  | getter =>
      have hnames : (valueSignatures .getter tree).flatMap Signature.names =
          ((tree.filter (!·.2.isTable)) ++ tree.filter (·.2.isTable)).map
            fun entry => Naming.pascalCase entry.1 := by
        rw [valueSignatures, List.flatMap_append, List.flatMap_map, List.map_append]
        congr 1
        · exact List.map_eq_flatMap.symm
        · split
          · next hnone => simp [List.isEmpty_iff.1 hnone]
          · simp [Signature.names]
      rw [hnames]
      have hperm := List.filter_append_perm (fun entry : String × Value => entry.2.isTable) tree
      exact (List.perm_append_comm.trans hperm).map _

theorem names_emit_perm {e : Emitter} {f : SourceFile}
    (h : Yields (e.emit store tree catalog) before f after) :
    (f.signatures.flatMap Signature.names).Perm
      (catalog.schemas.map Schema.name ++ tree.map fun entry => Naming.pascalCase entry.1) := by
  have htypes : (catalog.sorted.map fun s => Signature.type s.name (typeFields e.mode s)).flatMap
      Signature.names = catalog.sorted.map Schema.name := by
    rw [List.flatMap_map]
    exact List.map_eq_flatMap.symm
  have hmethods : (catalog.sorted.flatMap (methodSignatures e.mode)).flatMap Signature.names =
      [] := by
    refine List.flatMap_eq_nil_iff.2 fun signature hmem => ?_
    obtain ⟨s, -, hmem⟩ := List.mem_flatMap.1 hmem
    obtain ⟨name, rfl⟩ := exists_of_mem_methodSignatures hmem
    rfl
  have hkeys : ((Table.sortByKey tree).map fun entry => Naming.pascalCase entry.1).Perm
      (tree.map fun entry => Naming.pascalCase entry.1) := (Table.sortByKey_perm tree).map _
  rw [signatures_emit h, List.flatMap_append, List.flatMap_append, htypes, hmethods,
    List.append_nil]
  exact (catalog.sorted_perm.map _).append ((names_valueSignatures_perm _ _).trans hkeys)

/-- The keys of a table become fields of its type or methods of it. -/
theorem nodup_members_iff (mode : Mode) (s : Schema) :
    ((typeFields mode s).map Field.name).Nodup ∧
        ((methodSignatures mode s).flatMap Signature.methods).Nodup ↔
      (s.fields.map fun field => Naming.pascalCase field.1).Nodup := by
  have hperm : (s.sortedFields.map fun field => Naming.pascalCase field.1).Perm
      (s.fields.map fun field => Naming.pascalCase field.1) := s.sortedFields_perm.map _
  rw [← hperm.nodup_iff]
  unfold typeFields methodSignatures
  cases mode with
  | static => simp [Function.comp_def]
  | getter =>
      cases s.inArray with
      | true => simp [Function.comp_def]
      | false =>
          have hmethods : (s.sortedFields.map fun field =>
              Signature.function (some s.name) (Naming.pascalCase field.1)).flatMap
                Signature.methods =
              (s.sortedFields.map fun field => Naming.pascalCase field.1).map (s.name, ·) := by
            rw [List.flatMap_map, List.map_map]
            exact List.map_eq_flatMap.symm
          simp only [reduceCtorEq, Bool.false_eq_true, or_self, if_false, List.map_nil,
            List.nodup_nil, true_and, hmethods]
          exact List.nodup_map_iff fun _ _ h => (Prod.mk.inj h).2

/-- Methods of different receivers never meet. -/
theorem nodup_methods_iff {e : Emitter} {f : SourceFile}
    (h : Yields (e.emit store tree catalog) before f after)
    (hnames : (catalog.schemas.map Schema.name).Nodup) :
    (f.signatures.flatMap Signature.methods).Nodup ↔ ∀ s ∈ catalog.schemas,
      ((methodSignatures e.mode s).flatMap Signature.methods).Nodup := by
  have hperm := catalog.sorted_perm
  have htypes : (catalog.sorted.map fun s => Signature.type s.name (typeFields e.mode s)).flatMap
      Signature.methods = [] := by
    simp [Signature.methods]
  have hvalues : (valueSignatures e.mode (Table.sortByKey tree)).flatMap Signature.methods =
      [] := by
    refine List.flatMap_eq_nil_iff.2 fun signature hmem => ?_
    obtain ⟨name, rfl⟩ | ⟨names, rfl⟩ := exists_of_mem_valueSignatures hmem
    · rfl
    · rfl
  -- A method is told by its receiver too, so methods clash within one type only.
  have hdisjoint : catalog.sorted.Pairwise (Function.onFun List.Disjoint fun s =>
      (methodSignatures e.mode s).flatMap Signature.methods) := by
    have hdistinct := List.pairwise_map.1 ((hperm.map Schema.name).nodup_iff.2 hnames)
    refine hdistinct.imp fun hne method hs ht => hne ?_
    have hreceiver {s : Schema}
        (hmem : method ∈ (methodSignatures e.mode s).flatMap Signature.methods) :
        method.1 = s.name := by
      obtain ⟨signature, hsignature, hmem⟩ := List.mem_flatMap.1 hmem
      obtain ⟨name, rfl⟩ := exists_of_mem_methodSignatures hsignature
      rw [List.mem_singleton.1 hmem]
    rw [← hreceiver hs, hreceiver ht]
  rw [signatures_emit h, List.flatMap_append, List.flatMap_append, htypes, hvalues,
    List.append_nil, List.nil_append, List.flatMap_assoc, List.nodup_flatMap,
    and_iff_left hdisjoint]
  simp only [hperm.mem_iff]

/-- Every identifier is declared once, and every field and method of a type, exactly if no two of
the names that are made from keys meet. Names of record types never do. -/
theorem declaresOnce_iff_namesApart (e : Emitter) (store : FileStore) (before : Progress)
    (tree : Table) {f : SourceFile} {after : Progress}
    (h : Yields (e.emit store tree (Catalog.collect tree)) before f after) :
    f.DeclaresOnce ↔ tree.NamesApart := by
  -- Record types are told apart by the catalog, so that only names from keys can meet.
  have hnames := Catalog.nodup_collect tree
  have hpackage : (f.signatures.flatMap Signature.names).Nodup ↔
      (tree.map fun entry => Naming.pascalCase entry.1).Nodup ∧
        ∀ entry ∈ tree, ¬ (Catalog.collect tree).contains (Naming.pascalCase entry.1) := by
    have hdisjoint : List.Disjoint ((Catalog.collect tree).schemas.map Schema.name)
        (tree.map fun entry => Naming.pascalCase entry.1) ↔
          ∀ entry ∈ tree, ¬ (Catalog.collect tree).contains (Naming.pascalCase entry.1) := by
      rw [List.disjoint_comm, List.disjoint_left, List.forall_mem_map]
      simp only [Catalog.contains_iff, List.mem_map]
    rw [(names_emit_perm h).nodup_iff, List.nodup_append', and_iff_right hnames, hdisjoint]
  have hmembers : (∀ s ∈ f.signatures, (s.fields.map Field.name).Nodup) ∧
      (f.signatures.flatMap Signature.methods).Nodup ↔ ∀ s ∈ (Catalog.collect tree).schemas,
        (s.fields.map fun field => Naming.pascalCase field.1).Nodup := by
    rw [forall_fields_iff h (P := fun fields => (fields.map Field.name).Nodup) List.nodup_nil,
      nodup_methods_iff h hnames]
    simp only [← nodup_members_iff e.mode, forall_and]
  unfold SourceFile.DeclaresOnce
  rw [hpackage, hmembers]
  exact ⟨fun ⟨⟨hvalues, htypes⟩, hfields⟩ => ⟨hvalues, htypes, hfields⟩,
    fun hapart => ⟨⟨hapart.values, hapart.types⟩, hapart.fields⟩⟩

def distinctNames : Table :=
  [("db", .table [("on", .boolean true)]), ("up", .boolean false)]

def distinctNamesFile : SourceFile :=
  ⟨"config", [.os, .strconv], [.placeholder "DbConfig",
    .accessor ⟨some "DbConfig", "On", .bool, .bool, "CONFIG_DB_ON", some (.boolean true)⟩,
    .accessor ⟨none, "Up", .bool, .bool, "CONFIG_UP", some (.boolean false)⟩,
    .group [⟨"Db", some (.named "DbConfig"), none⟩]]⟩

theorem yields_distinctNames (store : FileStore) (loader : Loader) :
    Yields (emit ⟨.getter, "config", "CONFIG"⟩ store distinctNames (Catalog.collect distinctNames))
      ⟨loader, []⟩ distinctNamesFile ⟨loader, [.os, .strconv, .os, .strconv]⟩ := by
  have hsorted : Table.sortByKey distinctNames = distinctNames := rfl
  have hcatalog : (Catalog.collect distinctNames).sorted =
      [⟨"DbConfig", ["db"], [("on", .boolean true)], false⟩] := rfl
  have haccessor (scope : Scope) (key : String) (b : Bool) :
      accessor ⟨.getter, "config", "CONFIG"⟩ store scope key (.boolean b) = do
        Build.require .os
        Build.require .strconv
        return .accessor ⟨scope.name, Naming.pascalCase key, .bool, .bool,
          Naming.variableName "CONFIG" ((scope.path ++ [key]).map Naming.Step.key),
          some (.boolean b)⟩ := by
    simp only [accessor, Build.field_boolean]
    rfl
  have hfields : Table.sortByKey [("on", Value.boolean true)] = [("on", .boolean true)] := rfl
  have hleaves : distinctNames.filter (!·.2.isTable) = [("up", .boolean false)] := rfl
  rw [emit, hcatalog]
  simp only [List.mapM_cons, List.mapM_nil, methods, getterValues, hsorted, Schema.sortedFields,
    hfields, hleaves, haccessor]
  rfl

theorem declaresOnce_distinctNames :
    Yields (emit ⟨.getter, "config", "CONFIG"⟩ (⟨[], [], [], 0⟩ : FileStore) distinctNames
        (Catalog.collect distinctNames)) ⟨⟨none, 0, []⟩, []⟩ distinctNamesFile
        ⟨⟨none, 0, []⟩, [.os, .strconv, .os, .strconv]⟩ ∧
      distinctNamesFile.DeclaresOnce := by
  have h := yields_distinctNames (⟨[], [], [], 0⟩ : FileStore) ⟨none, 0, []⟩
  exact ⟨h, (declaresOnce_iff_namesApart _ _ _ _ h).2 ⟨by decide, by decide, by decide⟩⟩

def clashingKeys : Table :=
  [("a-b", .boolean true), ("a_b", .boolean false)]

def clashingKeysFile : SourceFile :=
  ⟨"config", [], [.group [⟨"AB", some .bool, some (.boolean true)⟩,
    ⟨"AB", some .bool, some (.boolean false)⟩]]⟩

theorem yields_clashingKeys (store : FileStore) (loader : Loader) :
    Yields (emit ⟨.static, "config", "CONFIG"⟩ store clashingKeys (Catalog.collect clashingKeys))
      ⟨loader, []⟩ clashingKeysFile ⟨loader, []⟩ := by
  have hsorted : Table.sortByKey clashingKeys =
      [("a-b", .boolean true), ("a_b", .boolean false)] := rfl
  have hvalues : staticValues store clashingKeys = pure clashingKeysFile.declarations := by
    simp only [staticValues, hsorted, List.mapM_cons, List.mapM_nil, assignment,
      Build.field_boolean]
    rfl
  rw [emit]
  simp only [hvalues]
  rfl

/-- Not every file declares its identifiers once. -/
theorem not_all_declared_once : ¬ ∀ (e : Emitter) (store : FileStore) (before : Progress)
    (tree : Table) (f : SourceFile) (after : Progress),
    Yields (e.emit store tree (Catalog.collect tree)) before f after → f.DeclaresOnce := by
  intro h
  have honce := h _ _ _ _ _ _ (yields_clashingKeys (⟨[], [], [], 0⟩ : FileStore)
    ⟨none, 0, []⟩)
  exact absurd honce (by decide)

end Emitter

end TypedConfig
