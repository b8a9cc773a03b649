import TypedConfig.Proofs.Emission.Literals
import TypedConfig.Proofs.Schema.Catalog
import TypedConfig.Proofs.Value.Kind

namespace TypedConfig

open Go (Declaration Package GoType SourceFile)

namespace Go

def Declaration.needs : Declaration → List Package
  | .accessor a => (a.fallback.map (·.needs)).getD [] ++ Emitter.accessorPackages a.kind
  | .group members => members.flatMap fun v => (v.value.map (·.needs)).getD []
  | _ => []

end Go

namespace Emitter

open Build (Yields MadeLiteral)

/-- What a run has declared: all names are well formed, all packages noted but `time` are referred
to, and `time` is noted only for values that have durations. -/
structure Declared (ds : List Declaration) (timed durations : Bool) (before after : Progress) :
    Prop where
  named : ∀ d ∈ ds, d.Named
  noted : after.packages = before.packages ++ ds.flatMap (·.needs)
  used : ∀ d ∈ ds, ∀ p ∈ d.needs, p ≠ .time → p ∈ d.packages
  time_mem_iff : (∃ d ∈ ds, .time ∈ d.packages) ↔ timed
  durations_of_mem : ∀ d ∈ ds, .time ∈ d.needs → durations

variable {ds es : List Declaration} {timed rest durations restDurations : Bool}
  {before between after : Progress} {σ : Type} [FileSystem σ] {store : σ}

theorem declared_nil : Declared [] false durations before before :=
  ⟨by simp, by simp, by simp, by simp, by simp⟩

theorem declared_single {d : Declaration} (hnamed : d.Named)
    (hnoted : after.packages = before.packages ++ d.needs)
    (hused : ∀ p ∈ d.needs, p ≠ .time → p ∈ d.packages) (htime : .time ∈ d.packages ↔ timed)
    (hdurations : .time ∈ d.needs → durations) : Declared [d] timed durations before after :=
  ⟨List.forall_mem_singleton.2 hnamed, by rw [hnoted, List.flatMap_singleton],
    List.forall_mem_singleton.2 hused, by simpa using htime, List.forall_mem_singleton.2 hdurations⟩

/-- A declaration that notes nothing. -/
theorem declared_bare {d : Declaration} (hnamed : d.Named) (hneeds : d.needs = [])
    (htime : .time ∈ d.packages ↔ timed) : Declared [d] timed durations before before :=
  declared_single hnamed (by simp [hneeds]) (by simp [hneeds]) htime (by simp [hneeds])

theorem Declared.append (hds : Declared ds timed durations before between)
    (hes : Declared es rest restDurations between after) :
    Declared (ds ++ es) (timed || rest) (durations || restDurations) before after := by
  refine ⟨?_, ?_, ?_, ?_, ?_⟩
  · exact List.forall_mem_append.2 ⟨hds.named, hes.named⟩
  · rw [hes.noted, hds.noted, List.flatMap_append, List.append_assoc]
  · exact List.forall_mem_append.2 ⟨hds.used, hes.used⟩
  · rw [Bool.or_eq_true, ← hds.time_mem_iff, ← hes.time_mem_iff]
    simp only [List.mem_append, or_and_right, exists_or]
  · rw [Bool.or_eq_true]
    refine List.forall_mem_append.2 ⟨fun d hd h => ?_, fun d hd h => ?_⟩
    · exact .inl (hds.durations_of_mem d hd h)
    · exact .inr (hes.durations_of_mem d hd h)

theorem declared_mapM {α β : Type} {f : α → Build β} (declarations : β → List Declaration)
    (timed durations : α → Bool) {xs : List α} {ys : List β}
    (hf : ∀ x ∈ xs, ∀ {before y after}, Yields (f x) before y after →
      Declared (declarations y) (timed x) (durations x) before after)
    (h : Yields (xs.mapM f) before ys after) :
    Declared (ys.flatMap declarations) (xs.any timed) (xs.any durations) before after := by
  induction xs generalizing before ys with
  | nil =>
      rw [List.mapM_nil] at h
      obtain ⟨rfl, rfl⟩ := (Build.yields_pure _ _).1 h
      exact declared_nil
  | cons x xs ih =>
      rw [List.mapM_cons] at h
      simp only [Build.yields_bind, Build.yields_pure] at h
      obtain ⟨y, _, hy, ys, _, hys, rfl, rfl⟩ := h
      rw [List.flatMap_cons, List.any_cons, List.any_cons]
      exact (hf x (List.mem_cons_self ..) hy).append
        (ih (fun x' hx' => hf x' (List.mem_cons_of_mem _ hx')) hys)

theorem fieldType_packages (scope : Scope) (key : String) (v : Value) :
    (scope.fieldType key v).packages = (GoType.ofValue v).packages := by
  unfold Scope.fieldType
  split
  · next hkind =>
    obtain ⟨entries, rfl⟩ := Value.exists_of_kind_table hkind
    rfl
  · next hkind =>
    obtain ⟨entries, rest, rfl⟩ := Value.exists_of_kind_tableArray hkind
    rfl
  · rfl

theorem named_fieldType {scope : Scope} (hscope : scope.Named) (key : String) (v : Value) :
    (scope.fieldType key v).Named := by
  unfold Scope.fieldType
  split
  · exact hscope.isName_typeName key .config
  · exact hscope.isName_typeName key .item
  · exact Build.named_ofValue v

theorem mem_bodyPackages {type fallback : List Package} {kind : Kind} (hkind : kind ≠ .table)
    (p : Package) : p ∈ Go.bodyPackages type fallback kind ↔
      p ∈ fallback ∨ p ∈ accessorPackages kind ∨ p = .time ∧ kind = .duration := by
  cases kind with
  | table => exact absurd rfl hkind
  | _ => simp [Go.bodyPackages, Go.conversionPackages, accessorPackages, or_comm, or_assoc]

theorem yields_accessor {e : Emitter} {scope : Scope} {key : String} {v : Value} {d : Declaration}
    (htable : v.isTable = false) (h : Yields (e.accessor store scope key v) before d after) :
    ∃ l between, Yields (Build.field store scope key v) before l between ∧
      after.packages = between.packages ++ accessorPackages v.kind ∧
      d = .accessor ⟨scope.name, Naming.pascalCase key, scope.fieldType key v, v.kind,
        Naming.variableName e.variablePrefix ((scope.path ++ [key]).map Naming.Step.key), l⟩ := by
  unfold accessor at h
  split at h
  · cases htable
  · simp only [Build.yields_bind, Build.yields_map, Build.yields_pure] at h
    obtain ⟨_, between, ⟨l, hl, rfl⟩, _, _, hrequire, rfl, rfl⟩ := h
    exact ⟨l, between, hl, Build.yields_requireAll hrequire, rfl⟩

def accessorShowsTime (v : Value) : Bool :=
  v.hasTimedType || (!v.isTable && v.spellsTime)

theorem declared_accessor (e : Emitter) {scope : Scope} (hscope : scope.Named) (key : String)
    (v : Value) {d : Declaration} (h : Yields (e.accessor store scope key v) before d after) :
    Declared [d] (accessorShowsTime v) v.containsDuration before after := by
  cases htable : v.isTable with
  | true =>
      obtain ⟨entries, rfl⟩ : ∃ entries, v = .table entries := by
        cases v <;> first | exact ⟨_, rfl⟩ | cases htable
      simp only [accessor, Build.yields_bind, Build.yields_pure] at h
      obtain ⟨_, _, ⟨rfl, rfl⟩, _, _, hrequire, rfl, rfl⟩ := h
      refine declared_single ?_ (Build.yields_requireAll hrequire) ?_ ?_ ?_
      · exact ⟨hscope, Naming.isName_pascalCase key,
          named_fieldType hscope key (.table entries), by simp⟩
      · simp [Declaration.needs, Value.kind, accessorPackages]
      · simp [Declaration.packages, Go.Accessor.packages, Go.bodyPackages, Value.kind,
          fieldType_packages, GoType.ofValue, GoType.packages, accessorShowsTime,
          Value.hasTimedType, Value.isTable]
      · simp [Declaration.needs, Value.kind, accessorPackages]
  | false =>
      obtain ⟨l, between, hl, hafter, rfl⟩ := yields_accessor htable h
      have hmade := Build.madeLiteral_field hscope key v hl
      have hkind : v.kind ≠ .table := by
        intro hkind
        obtain ⟨entries, rfl⟩ := Value.exists_of_kind_table hkind
        cases htable
      have htime : Package.time ∉ accessorPackages v.kind := by
        cases v.kind <;> decide
      refine declared_single ?_ ?_ ?_ ?_ ?_
      · refine ⟨hscope, Naming.isName_pascalCase key, named_fieldType hscope key v, ?_⟩
        rintro _ ⟨⟩
        exact hmade.named
      · rw [hafter, hmade.noted]
        simp [Declaration.needs]
      · intro p hp hne
        refine List.mem_append_right _ ((mem_bodyPackages hkind p).2 ?_)
        obtain hp | hp := List.mem_append.1 hp
        · exact .inl ((Go.Literal.mem_needs_iff hne l).1 hp)
        · exact .inr (.inl hp)
      · have htyped : .time ∈ (GoType.ofValue v).packages ↔ v.hasTimedType :=
          List.contains_iff_mem.symm
        have hduration (h : v.kind = .duration) : v.hasTimedType := by
          rw [← htyped, Value.ofValue_of_kind_duration h]
          exact List.mem_singleton_self _
        simp only [Declaration.packages, Go.Accessor.packages,
          fieldType_packages, List.mem_append, mem_bodyPackages hkind, htyped, htime, false_or,
          Option.map_some, Option.getD_some, hmade.time_mem_iff, accessorShowsTime, htable,
          Bool.or_eq_true, Bool.not_false, Bool.true_and, true_and]
        tauto
      · intro hp
        exact hmade.durations_of_mem ((List.mem_append.1 hp).resolve_right htime)

def typeShowsTime (mode : Mode) (schema : Schema) : Bool :=
  match mode with
  | .static => schema.fields.any (·.2.hasTimedType)
  | .getter =>
    if schema.inArray then schema.fields.any (·.2.hasTimedType)
    else schema.fields.any fun f => accessorShowsTime f.2

theorem named_schemaScope {schema : Schema} (h : Go.IsName schema.name) : schema.scope.Named := by
  rintro _ ⟨⟩
  exact h

theorem declared_recordType {schema : Schema} (hname : Go.IsName schema.name) :
    Declared [recordType schema] (schema.fields.any (·.2.hasTimedType)) false before before := by
  refine declared_bare ⟨hname, fun f hf => ?_⟩ rfl ?_
  · obtain ⟨entry, -, rfl⟩ := List.mem_map.1 hf
    exact ⟨Naming.isName_pascalCase entry.1,
      named_fieldType (named_schemaScope hname) entry.1 entry.2⟩
  · rw [← Table.any_sortByKey]
    simp [recordType, Declaration.packages, Schema.fieldType, fieldType_packages,
      Schema.sortedFields, Value.hasTimedType]

theorem declared_placeholder {name : String} (hname : Go.IsName name) :
    Declared [.placeholder name] false false before before :=
  declared_bare hname rfl (by simp [Declaration.packages])

theorem declared_methods (e : Emitter) {schema : Schema} (hname : Go.IsName schema.name)
    {ds : List Declaration} (h : Yields (e.methods store schema) before ds after) :
    Declared ds (!schema.inArray && schema.fields.any fun f => accessorShowsTime f.2)
      (Value.entriesContainDuration schema.fields) before after := by
  unfold methods at h
  split at h
  · next harray =>
    obtain ⟨rfl, rfl⟩ := (Build.yields_pure _ _).1 h
    rw [harray]
    exact declared_nil
  · next harray =>
    rw [Bool.not_eq_true] at harray
    have hds := declared_mapM (fun d => [d]) (fun f => accessorShowsTime f.2)
      (fun f => f.2.containsDuration)
      (fun f _ _ _ _ hf => declared_accessor e (named_schemaScope hname) f.1 f.2 hf) h
    rw [List.flatMap_singleton', Schema.sortedFields, Table.any_sortByKey, Table.any_sortByKey,
      ← Value.entriesContainDuration_eq_any] at hds
    rw [harray]
    exact hds

def valueShowsTime (mode : Mode) (v : Value) : Bool :=
  match mode with
  | .static => v.hasTimedType || v.spellsTime
  | .getter => accessorShowsTime v

theorem Declared.group {members : List Go.Variable}
    (h : Declared (members.flatMap fun v => [.group [v]]) timed durations before after) :
    Declared [.group members] timed durations before after := by
  have hmem (v : Go.Variable) (hv : v ∈ members) :
      Declaration.group [v] ∈ members.flatMap fun v => [.group [v]] :=
    List.mem_flatMap.2 ⟨v, hv, List.mem_singleton_self _⟩
  refine declared_single ?_ ?_ ?_ ?_ ?_
  · intro v hv
    exact h.named _ (hmem v hv) v (List.mem_singleton_self _)
  · rw [h.noted]
    simp [Declaration.needs, List.flatMap_assoc]
  · intro p hp hne
    obtain ⟨v, hv, hp⟩ := List.mem_flatMap.1 hp
    have hused := h.used _ (hmem v hv) p (by simpa [Declaration.needs] using hp) hne
    exact List.mem_flatMap.2 ⟨v, hv, by simpa [Declaration.packages] using hused⟩
  · rw [← h.time_mem_iff]
    simp [Declaration.packages]
  · intro hp
    obtain ⟨v, hv, hp⟩ := List.mem_flatMap.1 hp
    exact h.durations_of_mem _ (hmem v hv) (by simpa [Declaration.needs] using hp)

/-- The variable of a value states a type only where the literal does not. -/
theorem declared_variable {key : String} {v : Value} {l : Go.Literal} {type : Option GoType}
    (hl : MadeLiteral l timed durations before after)
    (htype : (type.map (·.packages)).getD [] = (GoType.ofValue v).packages)
    (hnamed : ∀ t ∈ type, t.Named) :
    Declared [.group [⟨Naming.pascalCase key, type, some l⟩]] (v.hasTimedType || timed) durations
      before after := by
  refine declared_single ?_ ?_ ?_ ?_ ?_
  · refine List.forall_mem_singleton.2 ⟨Naming.isName_pascalCase key, hnamed, ?_⟩
    rintro _ ⟨⟩
    exact hl.named
  · rw [hl.noted]
    simp [Declaration.needs]
  · intro p hp hne
    have hused : p ∈ l.packages := (Go.Literal.mem_needs_iff hne l).1 (by
      simpa [Declaration.needs] using hp)
    simp [Declaration.packages, Go.Variable.packages, hused]
  · simp [Declaration.packages, Go.Variable.packages, htype, hl.time_mem_iff, Value.hasTimedType]
  · intro hp
    exact hl.durations_of_mem (by simpa [Declaration.needs] using hp)

theorem declared_empty (key : String) :
    Declared [.group [⟨Naming.pascalCase key, some (GoType.ofValue (.array [])), none⟩]]
      ((Value.array []).hasTimedType || (Value.array []).spellsTime) durations before before := by
  refine declared_bare (List.forall_mem_singleton.2 ⟨Naming.isName_pascalCase key, ?_, ?_⟩) rfl ?_
  · simp [GoType.ofValue, GoType.Named]
  · simp
  · simp [Declaration.packages, Go.Variable.packages, GoType.ofValue, GoType.packages,
      Value.hasTimedType, Value.spellsTime, Value.isTableArray, Value.leafSpellsTime]

theorem declared_assignment {key : String} {v : Value} {member : Go.Variable}
    (h : Yields (assignment store key v) before member after) :
    Declared [.group [member]] (v.hasTimedType || v.spellsTime) v.containsDuration before
      after := by
  unfold assignment at h
  split at h
  · obtain ⟨rfl, rfl⟩ := (Build.yields_pure _ _).1 h
    exact declared_empty key
  · simp only [Build.yields_bind, Build.yields_pure] at h
    obtain ⟨l, _, hl, rfl, rfl⟩ := h
    refine declared_variable (Build.madeLiteral_field Scope.named_root key v hl) ?_ ?_
    · split
      · exact (Build.packages_of_isRecord hl rfl).symm
      · exact (Build.packages_of_isRecord hl rfl).symm
      · rfl
    · intro t ht
      split at ht
      · cases ht
      · cases ht
      · cases ht
        exact Build.named_ofValue v

theorem declared_staticValues {tree : Table}
    (h : Yields (staticValues store tree) before ds after) :
    Declared ds (tree.any fun entry => valueShowsTime .static entry.2)
      (Value.entriesContainDuration tree) before after := by
  simp only [staticValues, Build.yields_bind, Build.yields_pure] at h
  obtain ⟨members, _, hmembers, rfl, rfl⟩ := h
  rw [Value.entriesContainDuration_eq_any, ← Table.any_sortByKey,
    ← Table.any_sortByKey tree (·.2.containsDuration)]
  exact (declared_mapM (fun v => [.group [v]]) _ _
    (fun _ _ _ _ _ hentry => declared_assignment hentry) hmembers).group

/-- A variable for each table, of the type of the table. -/
theorem declared_instances (tables : Table) :
    Declared (if tables.isEmpty then [] else [.group (tables.map fun entry =>
      ⟨Naming.pascalCase entry.1, some (.named (Scope.root.typeName entry.1 .config)), none⟩)])
      false false before before := by
  split
  · exact declared_nil
  · refine declared_bare (fun v hv => ?_) (by simp [Declaration.needs, List.flatMap_map]) ?_
    · obtain ⟨entry, -, rfl⟩ := List.mem_map.1 hv
      refine ⟨Naming.isName_pascalCase entry.1, ?_, by simp⟩
      rintro _ ⟨⟩
      exact Scope.named_root.isName_typeName entry.1 .config
    · simp [Declaration.packages, Go.Variable.packages, GoType.packages]

theorem declared_getterValues (e : Emitter) {tree : Table}
    (h : Yields (e.getterValues store tree) before ds after) :
    Declared ds (tree.any fun entry => valueShowsTime .getter entry.2)
      (Value.entriesContainDuration tree) before after := by
  simp only [getterValues, Build.yields_bind, Build.yields_pure] at h
  obtain ⟨accessors, _, haccessors, rfl, rfl⟩ := h
  have hleaves := declared_mapM (fun d => [d]) (fun entry => accessorShowsTime entry.2)
    (fun entry => entry.2.containsDuration)
    (fun entry _ _ _ _ h => declared_accessor e Scope.named_root entry.1 entry.2 h) haccessors
  have htables (v : Value) : (!v.isTable && accessorShowsTime v) = accessorShowsTime v := by
    cases v <;> rfl
  rw [List.flatMap_singleton', List.any_filter, List.any_filter] at hleaves
  simp only [htables] at hleaves
  have hall := hleaves.append (declared_instances ((Table.sortByKey tree).filter (·.2.isTable)))
  rw [Bool.or_false, Table.any_sortByKey, Table.any_sortByKey] at hall
  rw [List.isEmpty_map]
  refine { hall with durations_of_mem := fun d hd hp => ?_ }
  have hany := hall.durations_of_mem d hd hp
  rw [Value.entriesContainDuration_eq_any]
  simp only [Bool.or_false, List.any_eq_true, Bool.and_eq_true] at hany ⊢
  obtain ⟨entry, hentry, -, hv⟩ := hany
  exact ⟨entry, hentry, hv⟩

def showsTime (mode : Mode) (tree : Table) (catalog : Catalog) : Bool :=
  catalog.schemas.any (typeShowsTime mode) || tree.any fun entry => valueShowsTime mode entry.2

theorem declared_types (mode : Mode) {schemas : List Schema}
    (hnames : ∀ s ∈ schemas, Go.IsName s.name) :
    Declared (schemas.map (typeDeclaration mode))
      (schemas.any fun s => (mode == .static || s.inArray) && s.fields.any (·.2.hasTimedType))
      false before before := by
  induction schemas with
  | nil => exact declared_nil
  | cons s schemas ih =>
      obtain ⟨hname, hnames⟩ := List.forall_mem_cons.1 hnames
      have hrest := ih hnames
      have htype : Declared [typeDeclaration mode s]
          ((mode == .static || s.inArray) && s.fields.any (·.2.hasTimedType)) false before
          before := by
        unfold typeDeclaration
        cases mode with
        | static => exact declared_recordType hname
        | getter =>
            cases harray : s.inArray with
            | true => exact declared_recordType hname
            | false => exact declared_placeholder hname
      exact htype.append hrest

/-- The imports are those noted, and `time` where the scan for durations finds one. -/
theorem mem_imports {e : Emitter} {tree : Table} {ds : List Declaration} {f : SourceFile}
    (h : Yields (do
      if Value.entriesContainDuration tree then Build.require .time
      let packages := (← get).packages
      return (⟨e.package, Package.all.filter (packages.contains ·), ds⟩ : SourceFile))
      before f after) :
    f.declarations = ds ∧
      ∀ p, p ∈ f.imports ↔ p ∈ before.packages ∨ p = .time ∧ Value.entriesContainDuration tree := by
  have hall (p : Package) : p ∈ Package.all := by
    cases p <;> decide
  split at h
  · next hduration =>
    simp only [Build.yields_bind, Build.yields_require, Build.yields_get, Build.yields_pure] at h
    obtain ⟨_, _, rfl, _, _, ⟨rfl, rfl⟩, rfl, rfl⟩ := h
    refine ⟨rfl, fun p => ?_⟩
    simp [List.mem_filter, hall, hduration]
  · next hduration =>
    simp only [Build.yields_bind, Build.yields_get, Build.yields_pure] at h
    obtain ⟨_, _, ⟨rfl, rfl⟩, rfl, rfl⟩ := h
    refine ⟨rfl, fun p => ?_⟩
    simp [List.mem_filter, hall, hduration]

theorem loader_of_header {e : Emitter} {tree : Table} {ds : List Declaration} {f : SourceFile}
    (h : Yields (do
      if Value.entriesContainDuration tree then Build.require .time
      let packages := (← get).packages
      return (⟨e.package, Package.all.filter (packages.contains ·), ds⟩ : SourceFile))
      before f after) : after.loader = before.loader := by
  split at h
  · simp only [Build.yields_bind, Build.yields_require, Build.yields_get, Build.yields_pure] at h
    obtain ⟨_, _, rfl, _, _, ⟨rfl, rfl⟩, -, rfl⟩ := h
    rfl
  · simp only [Build.yields_bind, Build.yields_get, Build.yields_pure] at h
    obtain ⟨_, _, ⟨rfl, rfl⟩, -, rfl⟩ := h
    rfl

/-- The parts of an emitted file, and the runs that made them. -/
theorem parts_of_emit {e : Emitter} {tree : Table} {catalog : Catalog} {f : SourceFile}
    (h : Yields (e.emit store tree catalog) before f after) :
    ∃ methods values between last,
      Yields (e.methodsOfAll store catalog) before methods between ∧
      Yields (e.values store tree) between values last ∧ after.loader = last.loader ∧
      f.declarations =
        catalog.sorted.map (typeDeclaration e.mode) ++ methods.flatten ++ values := by
  rw [emit_eq] at h
  obtain ⟨methods, between, hmethods, h⟩ := (Build.yields_bind _ _ _).1 h
  obtain ⟨values, last, hvalues, h⟩ := (Build.yields_bind _ _ _).1 h
  exact ⟨methods, values, between, last, hmethods, hvalues, loader_of_header h, (mem_imports h).1⟩

theorem any_typeShowsTime_getter (schemas : List Schema) :
    schemas.any (typeShowsTime .getter) =
      ((schemas.any fun s => s.inArray && s.fields.any (·.2.hasTimedType)) ||
        schemas.any fun s => !s.inArray && s.fields.any fun f => accessorShowsTime f.2) := by
  have hsplit (s : Schema) : typeShowsTime .getter s =
      (s.inArray && s.fields.any (·.2.hasTimedType) ||
        !s.inArray && s.fields.any fun f => accessorShowsTime f.2) := by
    cases harray : s.inArray <;> simp [typeShowsTime, harray]
  rw [Bool.eq_iff_iff]
  simp only [hsplit, Bool.or_eq_true, List.any_eq_true, and_or_left, exists_or]

theorem declared_emit {e : Emitter} {tree : Table} {catalog : Catalog} {f : SourceFile}
    (hnames : ∀ s ∈ catalog.schemas, Go.IsName s.name)
    (h : Yields (e.emit store tree catalog) before f after) :
    ∃ last, Declared f.declarations (showsTime e.mode tree catalog)
        (catalog.schemas.any (fun s => Value.entriesContainDuration s.fields) ||
          Value.entriesContainDuration tree) before last ∧
      ∀ p, p ∈ f.imports ↔ p ∈ last.packages ∨ p = .time ∧ Value.entriesContainDuration tree := by
  have hperm := catalog.sorted_perm
  have hsorted : ∀ s ∈ catalog.sorted, Go.IsName s.name :=
    fun s hs => hnames s (hperm.mem_iff.1 hs)
  have htypes : Declared _ _ _ before before := declared_types e.mode hsorted
  unfold emit at h
  rw [showsTime, ← hperm.any_eq, ← hperm.any_eq]
  cases hmode : e.mode with
  | static =>
      simp only [hmode] at h htypes
      obtain ⟨methods, between, hmethods, h⟩ := (Build.yields_bind _ _ _).1 h
      obtain ⟨rfl, rfl⟩ := (Build.yields_pure _ _).1 hmethods
      obtain ⟨values, last, hvalues, h⟩ := (Build.yields_bind _ _ _).1 h
      obtain ⟨hds, himports⟩ := mem_imports h
      refine ⟨last, ?_, himports⟩
      have hnone : Declared [] false
          (catalog.sorted.any fun s => Value.entriesContainDuration s.fields) before before :=
        declared_nil
      have hall := (htypes.append hnone).append (declared_staticValues hvalues)
      rw [Bool.or_false, Bool.false_or] at hall
      rw [hds]
      exact hall
  | getter =>
      simp only [hmode] at h htypes
      obtain ⟨methods, between, hmethods, h⟩ := (Build.yields_bind _ _ _).1 h
      obtain ⟨values, last, hvalues, h⟩ := (Build.yields_bind _ _ _).1 h
      obtain ⟨hds, himports⟩ := mem_imports h
      refine ⟨last, ?_, himports⟩
      have hmethods := declared_mapM id _ _
        (fun s hs _ _ _ h => declared_methods e (hsorted s hs) h) hmethods
      have hall := (htypes.append hmethods).append (declared_getterValues e hvalues)
      rw [Bool.false_or, List.flatMap_id] at hall
      rw [hds, any_typeShowsTime_getter]
      exact hall

/-- An import is unused exactly if it is `time`, the scan finds a duration, and neither a type nor
a literal of the declarations refers to it. -/
theorem unused_import_iff (e : Emitter) (store : FileStore) (loader : Loader) (tree : Table)
    {f : SourceFile} {after : Progress}
    (h : Yields (e.emit store tree (Catalog.collect tree)) ⟨loader, []⟩ f after) (p : Package) :
    p ∈ f.imports ∧ ¬ f.RefersTo p ↔
      p = .time ∧ Value.entriesContainDuration tree ∧
        showsTime e.mode tree (Catalog.collect tree) = false := by
  have hholds (s : Schema) (hs : s ∈ (Catalog.collect tree).schemas) :
      Scope.root.Holds tree s := Catalog.mem_collect hs
  obtain ⟨last, hds, himports⟩ := declared_emit
    (fun s hs => (hholds s hs).isName Scope.named_root) h
  -- Record types are parts of the tree, so the scan of the tree meets their durations too.
  have hscan (d : Declaration) (hd : d ∈ f.declarations) (hp : .time ∈ d.needs) :
      Value.entriesContainDuration tree := by
    obtain hany | htree := Bool.or_eq_true_iff.1 (hds.durations_of_mem d hd hp)
    · obtain ⟨s, hs, hfields⟩ := List.any_eq_true.1 hany
      exact (hholds s hs).entriesContainDuration hfields
    · exact htree
  rw [SourceFile.refersTo_iff hds.named, himports, hds.noted, List.nil_append, List.mem_flatMap,
    ← Bool.not_eq_true, ← hds.time_mem_iff]
  constructor
  · rintro ⟨himport, hunused⟩
    have hp : p = .time := by
      by_contra hne
      obtain ⟨d, hd, hp⟩ | ⟨hp, -⟩ := himport
      · exact hunused ⟨d, hd, hds.used d hd p hp hne⟩
      · exact hne hp
    subst hp
    refine ⟨rfl, ?_, hunused⟩
    obtain ⟨d, hd, hp⟩ | ⟨-, hduration⟩ := himport
    · exact hscan d hd hp
    · exact hduration
  · rintro ⟨rfl, hduration, hunused⟩
    exact ⟨.inr ⟨rfl, hduration⟩, hunused⟩

def keptDuration : Table :=
  [("x", .array [.string "a", .string "5s"])]

def keptDurationFile : SourceFile :=
  ⟨"config", [.time], [.group [⟨"X", some (.slice .string),
    some (.slice .string [.string "a", .string "5s"])⟩]]⟩

theorem yields_keptDuration (store : FileStore) (loader : Loader) :
    Yields (emit ⟨.static, "config", "CONFIG"⟩ store keptDuration (Catalog.collect keptDuration))
      ⟨loader, []⟩ keptDurationFile ⟨loader, [.time]⟩ := by
  have hkind : ((Value.string "a").kind == .string) = true := rfl
  have hliteral : Yields (Build.literal store (.array [.string "a", .string "5s"])) ⟨loader, []⟩
      (.slice .string [.string "a", .string "5s"]) ⟨loader, []⟩ := by
    rw [Build.literal_cons, hkind]
    simp only [Value.isTable, Build.element, Build.elements, Bool.false_eq_true, if_false, if_true,
      Build.yields_bind, Build.yields_pure]
    exact ⟨_, _, ⟨rfl, rfl⟩, _, _, ⟨_, _, ⟨rfl, rfl⟩, _, _, ⟨rfl, rfl⟩, rfl, rfl⟩, rfl, rfl⟩
  have hsorted : Table.sortByKey keptDuration =
      [("x", .array [.string "a", .string "5s"])] := rfl
  have hvalues : Yields (staticValues store keptDuration) ⟨loader, []⟩
      keptDurationFile.declarations ⟨loader, []⟩ := by
    simp only [staticValues, hsorted, List.mapM_cons, List.mapM_nil, assignment,
      Build.field.eq_def, Value.isTableArray, Bool.false_eq_true, if_false, Build.yields_bind,
      Build.yields_pure]
    exact ⟨_, _, ⟨_, _, ⟨_, _, hliteral, rfl, rfl⟩, _, _, ⟨rfl, rfl⟩, rfl, rfl⟩, rfl, rfl⟩
  have hcatalog : (Catalog.collect keptDuration).sorted = [] := rfl
  have hduration : Value.entriesContainDuration keptDuration = true := rfl
  simp only [emit, hcatalog, hduration, Build.yields_bind, Build.yields_pure,
    if_true]
  exact ⟨_, _, ⟨rfl, rfl⟩, _, _, hvalues, (), _, (Build.yields_require _ _).2 rfl, _, _,
    (Build.yields_get _).2 ⟨rfl, rfl⟩, rfl, rfl⟩

theorem unused_import_keptDuration :
    Yields (emit ⟨.static, "config", "CONFIG"⟩ (⟨[], [], [], 0⟩ : FileStore) keptDuration
        (Catalog.collect keptDuration)) ⟨⟨none, 0, []⟩, []⟩ keptDurationFile
        ⟨⟨none, 0, []⟩, [.time]⟩ ∧
      .time ∈ keptDurationFile.imports ∧ ¬ keptDurationFile.RefersTo .time := by
  have h := yields_keptDuration (⟨[], [], [], 0⟩ : FileStore) ⟨none, 0, []⟩
  exact ⟨h, (unused_import_iff _ _ _ _ h .time).2 ⟨rfl, rfl, by decide⟩⟩

/-- Not every import is used. -/
theorem not_all_imports_used : ¬ ∀ (e : Emitter) (store : FileStore) (loader : Loader)
    (tree : Table) (f : SourceFile) (after : Progress),
    Yields (e.emit store tree (Catalog.collect tree)) ⟨loader, []⟩ f after →
      ∀ p ∈ f.imports, f.RefersTo p := by
  intro h
  have hyields := yields_keptDuration (⟨[], [], [], 0⟩ : FileStore) ⟨none, 0, []⟩
  have hrefers := h _ _ _ _ _ _ hyields .time (by decide)
  exact absurd hrefers (by decide +kernel)

end Emitter

end TypedConfig
