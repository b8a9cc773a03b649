import TypedConfig.Proofs.Emission.Accessors
import TypedConfig.Proofs.Emission.Leaves
import Mathlib.Algebra.Group.Int.Defs
import Mathlib.Algebra.Group.Nat.Defs

namespace TypedConfig

open Go (Declaration GoType Literal SourceFile)

namespace Go

def IsInt64 (n : Int) : Prop :=
  -2 ^ 63 ≤ n ∧ n ≤ 2 ^ 63 - 1

/-- The types that declare a field of this name in a record of one of these types. There may be any
number of them: a record type may have two fields of one name, or none. -/
abbrev FieldTypes := List GoType → String → List GoType

def Declaration.fieldTypes (records : List GoType) (name : String) : Declaration → List GoType
  | .record owner fields =>
    if .named owner ∈ records then (fields.filter (·.name == name)).map Field.type else []
  | _ => []

def SourceFile.fieldTypes (f : SourceFile) : FieldTypes := fun records name =>
  f.declarations.flatMap (·.fieldTypes records name)

section Integers

variable (fieldTypes : FieldTypes)

mutual

/-- The integers of a literal that stand where `int64` is declared, the literal itself standing
where these types are. -/
def Literal.int64s (types : List GoType) : Literal → List Int
  | .integer n => if .int64 ∈ types then [n] else []
  | .slice element items => itemInt64s [element] items
  | .record (some name) fields => fieldInt64s [.named name] fields
  | .record none fields => fieldInt64s types fields
  | .records name elements => itemInt64s [.named name] elements
  | _ => []

def itemInt64s (types : List GoType) : List Literal → List Int
  | [] => []
  | item :: rest => item.int64s types ++ itemInt64s types rest

def fieldInt64s (records : List GoType) : List (String × Literal) → List Int
  | [] => []
  | (name, value) :: rest => value.int64s (fieldTypes records name) ++ fieldInt64s records rest

end

def Variable.int64s (v : Variable) : List Int :=
  (v.value.map (·.int64s fieldTypes v.type.toList)).getD []

def Accessor.int64s (a : Accessor) : List Int :=
  (a.fallback.map (·.int64s fieldTypes [a.type])).getD []

def Declaration.int64s : Declaration → List Int
  | .accessor a => a.int64s fieldTypes
  | .group members => members.flatMap (·.int64s fieldTypes)
  | _ => []

end Integers

def SourceFile.int64s (f : SourceFile) : List Int :=
  f.declarations.flatMap (·.int64s f.fieldTypes)

end Go

open Go (FieldTypes)

def Catalog.fieldTypes (mode : Mode) (catalog : Catalog) : FieldTypes := fun records name =>
  catalog.sorted.flatMap fun s =>
    if (mode = .static ∨ s.inArray) ∧ .named s.name ∈ records then
      (s.sortedFields.filter (Naming.pascalCase ·.1 == name)).map fun f => s.fieldType f.1 f.2
    else []

namespace Value

mutual

def plainInt64s (types : List GoType) : Value → List Int
  | .integer n => if .int64 ∈ types then [n] else []
  | .array (first :: rest) =>
    if first.isTable then []
    else
      first.plainInt64s [GoType.ofValue first] ++ itemInt64s [GoType.ofValue first] rest
  | _ => []

def itemInt64s (types : List GoType) : List Value → List Int
  | [] => []
  | v :: rest => v.plainInt64s types ++ itemInt64s types rest

end

section Fields

variable (fieldTypes : FieldTypes)

mutual

def int64s (scope : Scope) (key : String) (types : List GoType) : Value → List Int
  | .table entries =>
    entryInt64s (scope.child key .config) [.named (scope.typeName key .config)] entries
  | .array items =>
    if isTableArray (.array items) then
      recordInt64s (scope.child key .item) [.named (scope.typeName key .item)] items
    else plainInt64s types (.array items)
  | v => v.plainInt64s types

def entryInt64s (scope : Scope) (records : List GoType) : List (String × Value) → List Int
  | [] => []
  | (key, v) :: rest =>
    v.int64s scope key (fieldTypes records (Naming.pascalCase key)) ++
      entryInt64s scope records rest

def recordInt64s (scope : Scope) (records : List GoType) : List Value → List Int
  | [] => []
  | .table entries :: rest =>
    entryInt64s scope records entries ++ recordInt64s scope records rest
  | _ :: rest => recordInt64s scope records rest

end

/-- Tables state the types of their fields themselves, wherever they stand. -/
theorem int64s_of_not_isLeaf {v : Value} (h : v.isLeaf = false) (scope : Scope) (key : String)
    (types others : List GoType) :
    v.int64s fieldTypes scope key types = v.int64s fieldTypes scope key others := by
  cases v with
  | table entries => rfl
  | array items =>
      have htables : isTableArray (.array items) := by simpa [isLeaf, isTable] using h
      rw [int64s, int64s, if_pos htables, if_pos htables]
  | _ => cases h

end Fields

end Value

namespace Build

variable {σ : Type} [FileSystem σ] {store : σ} {before after : Progress} {l : Literal}
  {fieldTypes : FieldTypes} {types : List GoType}

theorem int64s_of_string {text : String} (h : Yields (string store text) before l after) :
    l.int64s fieldTypes types = [] := by
  unfold string at h
  split at h
  · simp only [yields_bind, yields_pure] at h
    obtain ⟨_, _, _, rfl, -⟩ := h
    rfl
  · simp only [yields_bind, yields_pure] at h
    obtain ⟨_, _, _, rfl, -⟩ := h
    rfl
  · obtain ⟨rfl, -⟩ := (yields_pure _ _).1 h
    rfl

theorem int64s_of_float {x : Binary64} (h : Yields (float x) before l after) :
    l.int64s fieldTypes types = [] := by
  unfold float at h
  split at h
  · obtain ⟨rfl, -⟩ := (yields_pure _ _).1 h
    rfl
  · simp only [yields_bind, yields_pure] at h
    obtain ⟨_, _, _, rfl, -⟩ := h
    rfl

theorem int64s_of_element {keeps : Bool} {v : Value}
    (hv : ∀ {before l after}, Yields (literal store v) before l after →
      l.int64s fieldTypes types = v.plainInt64s types)
    (h : Yields (element store keeps v) before l after) :
    l.int64s fieldTypes types = v.plainInt64s types := by
  rw [element.eq_def] at h
  split at h
  · split at h
    · obtain ⟨rfl, -⟩ := (yields_pure _ _).1 h
      rfl
    · exact int64s_of_string h
  · exact hv h

mutual

theorem int64s_of_literal : ∀ (v : Value) {before l after} {types : List GoType},
    Yields (literal store v) before l after →
      l.int64s fieldTypes types = v.plainInt64s types
  | .string text, before, l, after, types, h => by
      rw [literal.eq_def] at h
      exact int64s_of_string h
  | .integer n, before, l, after, types, h => by
      rw [literal.eq_def] at h
      obtain ⟨rfl, -⟩ := yields_integer h
      rfl
  | .float x, before, l, after, types, h => by
      rw [literal.eq_def] at h
      exact int64s_of_float h
  | .boolean _, before, l, after, types, h | .moment _, before, l, after, types, h
  | .array [], before, l, after, types, h | .table _, before, l, after, types, h
  | .absent, before, l, after, types, h => by
      rw [literal.eq_def] at h
      obtain ⟨rfl, -⟩ := (yields_pure _ _).1 h
      rfl
  | .array (first :: rest), before, l, after, types, h => by
      rw [literal_cons] at h
      rw [Value.plainInt64s]
      split at h
      · next htable =>
        obtain ⟨rfl, -⟩ := (yields_pure _ _).1 h
        rw [if_pos htable]
        rfl
      · next htable =>
        simp only [yields_bind, yields_pure] at h
        obtain ⟨l, _, hl, ls, _, hls, rfl, -⟩ := h
        rw [if_neg htable, Literal.int64s, Go.itemInt64s,
          int64s_of_element (int64s_of_literal first) hl, int64s_of_elements rest hls]

theorem int64s_of_elements {keeps : Bool} : ∀ (vs : List Value) {before ls after}
    {types : List GoType}, Yields (elements store keeps vs) before ls after →
      Go.itemInt64s fieldTypes types ls = Value.itemInt64s types vs
  | [], before, ls, after, types, h => by
      rw [elements] at h
      obtain ⟨rfl, -⟩ := (yields_pure _ _).1 h
      rfl
  | v :: rest, before, ls, after, types, h => by
      rw [elements] at h
      simp only [yields_bind, yields_pure] at h
      obtain ⟨l, _, hl, ls, _, hls, rfl, -⟩ := h
      rw [Go.itemInt64s, Value.itemInt64s, int64s_of_element (int64s_of_literal v) hl,
        int64s_of_elements rest hls]

end

theorem int64s_of_mapM {scope : Scope} {records : List GoType} {entries : Table}
    (hentries : ∀ e ∈ entries, ∀ {before l after types},
      Yields (field store scope e.1 e.2) before l after →
        l.int64s fieldTypes types = e.2.sorted.int64s fieldTypes scope e.1 types)
    {fs : List (String × Literal)}
    (h : Yields (entries.mapM (namedField store scope)) before fs after) :
    Go.fieldInt64s fieldTypes records fs = Value.entryInt64s fieldTypes scope records
      (entries.map fun e => (e.1, e.2.sorted)) := by
  induction entries generalizing before after fs with
  | nil =>
      rw [List.mapM_nil] at h
      obtain ⟨rfl, -⟩ := (yields_pure _ _).1 h
      rfl
  | cons entry entries ih =>
      obtain ⟨hentry, hentries⟩ := List.forall_mem_cons.1 hentries
      rw [List.mapM_cons] at h
      simp only [namedField, yields_bind, yields_pure] at h
      obtain ⟨_, _, ⟨l, _, hl, rfl, rfl⟩, fs, _, hfs, rfl, -⟩ := h
      rw [List.map_cons, Go.fieldInt64s, Value.entryInt64s, hentry hl, ih hentries hfs]

theorem int64s_of_fields {scope : Scope} {records : List GoType} {entries : Table}
    (hentries : ∀ e ∈ entries, ∀ {before l after types},
      Yields (field store scope e.1 e.2) before l after →
        l.int64s fieldTypes types = e.2.sorted.int64s fieldTypes scope e.1 types)
    {fs : List (String × Literal)} (h : Yields (fields store scope entries) before fs after) :
    Go.fieldInt64s fieldTypes records fs =
      Value.entryInt64s fieldTypes scope records (Table.sorted entries) := by
  rw [fields_eq_mapM] at h
  rw [Table.sorted_eq_map]
  exact int64s_of_mapM (fun e he => hentries e (Table.mem_sortByKey.1 he)) h

mutual

theorem int64s_of_field {scope : Scope} (key : String) : ∀ (v : Value) {before l after}
    {types : List GoType}, Yields (field store scope key v) before l after →
      l.int64s fieldTypes types = v.sorted.int64s fieldTypes scope key types
  | .table entries, before, l, after, types, h => by
      rw [field_table] at h
      simp only [yields_bind, yields_pure] at h
      obtain ⟨fs, _, hfs, rfl, -⟩ := h
      exact int64s_of_fields (int64s_of_eachField entries) hfs
  | .array items, before, l, after, types, h => by
      rw [field_array] at h
      rw [Value.sorted, Value.int64s, Value.isTableArray_sortedItems]
      split at h
      · next htables =>
        simp only [yields_bind, yields_pure] at h
        obtain ⟨ls, _, hls, rfl, -⟩ := h
        rw [if_pos htables]
        exact int64s_of_records items hls
      · next htables =>
        rw [if_neg htables]
        rw [← literal_sorted] at h
        exact int64s_of_literal _ h
  | .string _, before, l, after, types, h | .integer _, before, l, after, types, h
  | .float _, before, l, after, types, h | .boolean _, before, l, after, types, h
  | .moment _, before, l, after, types, h | .absent, before, l, after, types, h => by
      rw [field.eq_def] at h
      exact int64s_of_literal _ h

theorem int64s_of_eachField {scope : Scope} : ∀ entries : List (String × Value), ∀ e ∈ entries,
    ∀ {before l after types}, Yields (field store scope e.1 e.2) before l after →
      l.int64s fieldTypes types = e.2.sorted.int64s fieldTypes scope e.1 types
  | [] => List.forall_mem_nil _
  | (key, v) :: rest =>
      List.forall_mem_cons.2 ⟨int64s_of_field key v, int64s_of_eachField rest⟩

theorem int64s_of_records {scope : Scope} {records : List GoType} :
    ∀ (items : List Value) {before ls after},
      Yields (Build.records store scope items) before ls after →
        Go.itemInt64s fieldTypes records ls =
          Value.recordInt64s fieldTypes scope records (Value.sortedItems items)
  | [], before, ls, after, h => by
      rw [Build.records.eq_def] at h
      obtain ⟨rfl, -⟩ := (yields_pure _ _).1 h
      rfl
  | .table entries :: rest, before, ls, after, h => by
      rw [records_table] at h
      simp only [yields_bind, yields_pure] at h
      obtain ⟨fs, _, hfs, ls, _, hls, rfl, -⟩ := h
      rw [Value.sortedItems, Value.sorted, Go.itemInt64s, Value.recordInt64s, Literal.int64s,
        int64s_of_fields (int64s_of_eachField entries) hfs, int64s_of_records rest hls,
        Table.sorted]
  | .string _ :: rest, before, ls, after, h | .integer _ :: rest, before, ls, after, h
  | .float _ :: rest, before, ls, after, h | .boolean _ :: rest, before, ls, after, h
  | .moment _ :: rest, before, ls, after, h | .array _ :: rest, before, ls, after, h
  | .absent :: rest, before, ls, after, h => by
      rw [Build.records.eq_def] at h
      simp only [Value.sortedItems, Value.sorted]
      exact int64s_of_records rest h

end

end Build

namespace Emitter

open Build (Yields)

variable {σ : Type} [FileSystem σ] {e : Emitter} {store : σ} {before after : Progress}
  {fieldTypes : FieldTypes}

def placeInt64s (fieldTypes : FieldTypes) (place : Scope × String × Value) : List Int :=
  place.2.2.sorted.int64s fieldTypes place.1 place.2.1 [place.1.fieldType place.2.1 place.2.2]

def accessorInt64s (fieldTypes : FieldTypes) (place : Scope × String × Value) : List Int :=
  if place.2.2.isTable then [] else placeInt64s fieldTypes place

/-- The integers of a configuration that are written where `int64` is declared, in the order of the
keys. -/
def int64s (mode : Mode) (tree : Table) (catalog : Catalog) : List Int :=
  match mode with
  | .static =>
    (Table.sortByKey tree).flatMap fun entry =>
      placeInt64s (catalog.fieldTypes .static) (.root, entry)
  | .getter => (places catalog tree).flatMap (accessorInt64s (catalog.fieldTypes .getter))

/-- A variable states its type, or its literal does. -/
theorem int64s_stated {scope : Scope} {key : String} {v : Value} {l : Literal}
    (h : Yields (Build.field store scope key v) before l after) :
    placeInt64s fieldTypes (scope, key, v) =
      l.int64s fieldTypes (if l.isRecord then none else some (GoType.ofValue v)).toList := by
  rw [placeInt64s, Build.int64s_of_field key v h, Build.isRecord_of_field h]
  cases hv : v.isLeaf with
  | true => rw [Scope.fieldType_of_isLeaf _ _ hv]; rfl
  | false =>
      exact Value.int64s_of_not_isLeaf fieldTypes ((Value.isLeaf_sorted v).trans hv) _ _ _ _

theorem int64s_of_assignment {key : String} {v : Value} {member : Go.Variable}
    (h : Yields (assignment store key v) before member after) :
    member.int64s fieldTypes = placeInt64s fieldTypes (.root, key, v) := by
  unfold assignment at h
  split at h
  · obtain ⟨rfl, -⟩ := (Build.yields_pure _ _).1 h
    rfl
  · simp only [Build.yields_bind, Build.yields_pure] at h
    obtain ⟨l, _, hl, rfl, -⟩ := h
    rw [int64s_stated hl]
    cases l <;> rfl

theorem int64s_of_accessor {scope : Scope} {field : String × Value} {d : Declaration}
    (h : Yields (e.accessor store scope field.1 field.2) before d after) :
    d.int64s fieldTypes = accessorInt64s fieldTypes (scope, field) := by
  obtain ⟨-, a, rfl, hof⟩ := accessorOf_of_yields h
  obtain ⟨_, _, hfallback, -⟩ := hof.fallback
  rw [Declaration.int64s, Go.Accessor.int64s, accessorInt64s]
  unfold fallback at hfallback
  split at hfallback
  · next htable =>
    obtain ⟨hnone, -⟩ := (Build.yields_pure _ _).1 hfallback
    rw [← hnone, if_pos htable]
    rfl
  · next htable =>
    obtain ⟨l, hl, hsome⟩ := (Build.yields_map _ _ _).1 hfallback
    rw [← hsome, if_neg htable, hof.type]
    exact Build.int64s_of_field _ _ hl

theorem fieldTypes_typeDeclaration (mode : Mode) (s : Schema) (records : List GoType)
    (name : String) : (typeDeclaration mode s).fieldTypes records name =
      if (mode = .static ∨ s.inArray) ∧ .named s.name ∈ records then
        (s.sortedFields.filter (Naming.pascalCase ·.1 == name)).map fun f => s.fieldType f.1 f.2
      else [] := by
  have hrecord : (recordType s).fieldTypes records name =
      if .named s.name ∈ records then
        (s.sortedFields.filter (Naming.pascalCase ·.1 == name)).map fun f => s.fieldType f.1 f.2
      else [] := by
    rw [recordType, Declaration.fieldTypes, List.filter_map, List.map_map]
    rfl
  cases mode with
  | static => simpa [typeDeclaration] using hrecord
  | getter =>
      cases harray : s.inArray with
      | true => simpa [typeDeclaration, harray] using hrecord
      | false => simp [typeDeclaration, harray, Declaration.fieldTypes]

theorem int64s_typeDeclaration (mode : Mode) (s : Schema) :
    (typeDeclaration mode s).int64s fieldTypes = [] := by
  cases mode with
  | static => rfl
  | getter =>
      rw [typeDeclaration]
      cases s.inArray <;> rfl

structure States (ds : List Declaration) (ns : FieldTypes → List Int) : Prop where
  int64s : ∀ fieldTypes, ds.flatMap (·.int64s fieldTypes) = ns fieldTypes
  fieldTypes : ∀ records name, ds.flatMap (·.fieldTypes records name) = []

variable {ds es : List Declaration} {ns ms : FieldTypes → List Int}

theorem states_nil : States [] fun _ => [] :=
  ⟨fun _ => rfl, fun _ _ => rfl⟩

theorem States.append (hds : States ds ns) (hes : States es ms) :
    States (ds ++ es) fun fieldTypes => ns fieldTypes ++ ms fieldTypes where
  int64s fieldTypes := by rw [List.flatMap_append, hds.int64s, hes.int64s]
  fieldTypes records name := by
    rw [List.flatMap_append, hds.fieldTypes, hes.fieldTypes, List.append_nil]

theorem states_mapM {α β : Type} {f : α → Build β} (declarations : β → List Declaration)
    (ns : α → FieldTypes → List Int)
    (hf : ∀ {x before y after}, Yields (f x) before y after → States (declarations y) (ns x))
    {xs : List α} {ys : List β} (h : Yields (xs.mapM f) before ys after) :
    States (ys.flatMap declarations) fun fieldTypes => xs.flatMap (ns · fieldTypes) := by
  have hall := Build.yields_mapM h
  clear h
  induction hall with
  | nil => exact states_nil
  | cons hy _ ih =>
      obtain ⟨_, _, hy⟩ := hy
      simp only [List.flatMap_cons]
      exact (hf hy).append ih

theorem states_accessors {scope : Scope} {fields : Table}
    (h : Yields (fields.mapM fun field => e.accessor store scope field.1 field.2) before ds after) :
    States ds fun fieldTypes =>
      (fields.map fun field => (scope, field)).flatMap (accessorInt64s fieldTypes) := by
  have hall := states_mapM (fun d => [d])
    (fun field fieldTypes => accessorInt64s fieldTypes (scope, field)) (fun {field _ d _} hd => by
      obtain ⟨-, a, rfl, -⟩ := accessorOf_of_yields hd
      exact ⟨fun _ => (List.flatMap_singleton ..).trans (int64s_of_accessor hd), fun _ _ => rfl⟩) h
  simpa [List.flatMap_map] using hall

theorem states_methods {s : Schema} (h : Yields (e.methods store s) before ds after) :
    States ds fun fieldTypes => (methodPlaces s).flatMap (accessorInt64s fieldTypes) := by
  unfold methods at h
  unfold methodPlaces
  split at h
  · next harray =>
    obtain ⟨rfl, -⟩ := (Build.yields_pure _ _).1 h
    simp only [if_pos harray]
    exact states_nil
  · next harray =>
    simp only [if_neg harray]
    exact states_accessors h

theorem states_allMethods {schemas : List Schema} {methods : List (List Declaration)}
    (h : Yields (schemas.mapM (e.methods store)) before methods after) :
    States methods.flatten fun fieldTypes =>
      (schemas.flatMap methodPlaces).flatMap (accessorInt64s fieldTypes) := by
  have hall := states_mapM id _ (fun hds => states_methods hds) h
  simpa [List.flatMap_assoc] using hall

theorem states_staticValues {tree : Table} (h : Yields (staticValues store tree) before ds after) :
    States ds fun fieldTypes =>
      (Table.sortByKey tree).flatMap fun entry => placeInt64s fieldTypes (.root, entry) := by
  simp only [staticValues, Build.yields_bind, Build.yields_pure] at h
  obtain ⟨members, _, hmembers, rfl, -⟩ := h
  refine ⟨fun fieldTypes => ?_, fun _ _ => rfl⟩
  rw [List.flatMap_singleton, Declaration.int64s, List.flatMap_def, List.flatMap_def,
    Build.map_eq_of_yields_mapM int64s_of_assignment hmembers]

theorem states_getterValues {tree : Table}
    (h : Yields (e.getterValues store tree) before ds after) :
    States ds fun fieldTypes =>
      (((Table.sortByKey tree).filter (!·.2.isTable)).map fun entry => (.root, entry)).flatMap
        (accessorInt64s fieldTypes) := by
  simp only [getterValues, Build.yields_bind, Build.yields_pure] at h
  obtain ⟨accessors, _, haccessors, rfl, -⟩ := h
  have hinstances (members : List Go.Variable) (hmembers : ∀ v ∈ members, v.value = none) :
      States (if members.isEmpty then [] else [.group members]) fun _ => [] := by
    have hnone (fieldTypes : FieldTypes) : members.flatMap (·.int64s fieldTypes) = [] :=
      List.flatMap_eq_nil_iff.2 fun v hv => by rw [Go.Variable.int64s, hmembers v hv]; rfl
    split
    · exact states_nil
    · exact ⟨fun _ => (List.flatMap_singleton ..).trans (hnone _), fun _ _ => rfl⟩
  have hstates (members : List Go.Variable) (hmembers : ∀ v ∈ members, v.value = none) :=
    (states_accessors haccessors).append (hinstances members hmembers)
  simp only [List.append_nil] at hstates
  exact hstates _ (List.forall_mem_map.2 fun _ _ => rfl)

/-- All but the record types of a file. -/
theorem states_rest {tree : Table} {catalog : Catalog} {methods : List (List Declaration)}
    {values : List Declaration} {between last : Progress}
    (hmethods : Yields (e.methodsOfAll store catalog) before methods between)
    (hvalues : Yields (e.values store tree) between values last) :
    States (methods.flatten ++ values) fun fieldTypes => match e.mode with
      | .static =>
        (Table.sortByKey tree).flatMap fun entry => placeInt64s fieldTypes (.root, entry)
      | .getter => (places catalog tree).flatMap (accessorInt64s fieldTypes) := by
  unfold methodsOfAll at hmethods
  unfold Emitter.values at hvalues
  cases hmode : e.mode with
  | static =>
      simp only [hmode] at hmethods hvalues
      obtain ⟨rfl, -⟩ := (Build.yields_pure _ _).1 hmethods
      exact states_staticValues hvalues
  | getter =>
      simp only [hmode] at hmethods hvalues
      have hstates := (states_allMethods hmethods).append (states_getterValues hvalues)
      simpa only [places, List.flatMap_append] using hstates

/-- The integers that an emitted file states where it declares `int64` are, one for one and in
order, those of the configuration at places of this type. -/
theorem int64s_emit {tree : Table} {catalog : Catalog} {f : SourceFile}
    (h : Yields (e.emit store tree catalog) before f after) :
    f.int64s = int64s e.mode tree catalog := by
  obtain ⟨methods, values, _, _, hmethods, hvalues, -, hds⟩ := parts_of_emit h
  have hstates := states_rest hmethods hvalues
  rw [List.append_assoc] at hds
  -- The record types say which types the fields have, and all else states the integers.
  have htypes : f.fieldTypes = catalog.fieldTypes e.mode := by
    funext records name
    rw [SourceFile.fieldTypes, hds, List.flatMap_append, hstates.fieldTypes, List.append_nil,
      List.flatMap_map]
    simp only [fieldTypes_typeDeclaration]
    rfl
  have hnone : (catalog.sorted.map (typeDeclaration e.mode)).flatMap
      (·.int64s f.fieldTypes) = [] := by
    rw [List.flatMap_map]
    exact List.flatMap_eq_nil_iff.2 fun s _ => int64s_typeDeclaration e.mode s
  rw [SourceFile.int64s, hds, List.flatMap_append, hnone, List.nil_append, hstates.int64s, htypes]
  cases e.mode <;> rfl

end Emitter

namespace Value

variable {n : Int}

mutual

theorem mem_leaves_of_mem_plainInt64s : ∀ {v : Value} {types : List GoType},
    n ∈ v.plainInt64s types → .integer n ∈ v.leaves
  | .integer m, types, h => by
      rw [plainInt64s] at h
      split at h
      · rw [List.mem_singleton.1 h]
        exact List.mem_singleton_self _
      · cases h
  | .array (first :: rest), types, h => by
      rw [plainInt64s] at h
      rw [leaves, itemLeaves]
      split at h
      · cases h
      · obtain h | h := List.mem_append.1 h
        · exact List.mem_append_left _ (mem_leaves_of_mem_plainInt64s h)
        · exact List.mem_append_right _ (mem_leaves_of_mem_itemInt64s h)
  | .array [], _, h | .string _, _, h | .float _, _, h | .boolean _, _, h | .moment _, _, h
  | .table _, _, h | .absent, _, h => by cases h

theorem mem_leaves_of_mem_itemInt64s : ∀ {items : List Value} {types : List GoType},
    n ∈ itemInt64s types items → .integer n ∈ itemLeaves items
  | [], _, h => by cases h
  | v :: rest, types, h => by
      obtain h | h := List.mem_append.1 h
      · exact List.mem_append_left _ (mem_leaves_of_mem_plainInt64s h)
      · exact List.mem_append_right _ (mem_leaves_of_mem_itemInt64s h)

end

section Fields

variable {fieldTypes : FieldTypes}

mutual

theorem mem_leaves_of_mem_int64s : ∀ {v : Value} {scope : Scope} {key : String}
    {types : List GoType}, n ∈ v.int64s fieldTypes scope key types → .integer n ∈ v.leaves
  | .table entries, _, _, _, h => mem_leaves_of_mem_entryInt64s h
  | .array items, _, _, _, h => by
      rw [int64s] at h
      split at h
      · exact mem_leaves_of_mem_recordInt64s h
      · exact mem_leaves_of_mem_plainInt64s h
  | .string _, _, _, types, h | .integer _, _, _, types, h | .float _, _, _, types, h
  | .boolean _, _, _, types, h | .moment _, _, _, types, h | .absent, _, _, types, h =>
      mem_leaves_of_mem_plainInt64s (show n ∈ plainInt64s types _ from h)

theorem mem_leaves_of_mem_entryInt64s : ∀ {entries : List (String × Value)} {scope : Scope}
    {records : List GoType}, n ∈ entryInt64s fieldTypes scope records entries →
      .integer n ∈ entryLeaves entries
  | [], _, _, h => by cases h
  | (_, v) :: rest, _, _, h => by
      obtain h | h := List.mem_append.1 h
      · exact List.mem_append_left _ (mem_leaves_of_mem_int64s h)
      · exact List.mem_append_right _ (mem_leaves_of_mem_entryInt64s h)

theorem mem_leaves_of_mem_recordInt64s : ∀ {items : List Value} {scope : Scope}
    {records : List GoType}, n ∈ recordInt64s fieldTypes scope records items →
      .integer n ∈ itemLeaves items
  | [], _, _, h => by cases h
  | .table entries :: rest, _, _, h => by
      obtain h | h := List.mem_append.1 h
      · exact List.mem_append_left _ (mem_leaves_of_mem_entryInt64s h)
      · exact List.mem_append_right _ (mem_leaves_of_mem_recordInt64s h)
  | .string _ :: rest, _, _, h | .integer _ :: rest, _, _, h | .float _ :: rest, _, _, h
  | .boolean _ :: rest, _, _, h | .moment _ :: rest, _, _, h | .array _ :: rest, _, _, h
  | .absent :: rest, _, _, h => List.mem_append_right _ (mem_leaves_of_mem_recordInt64s h)

end

end Fields

theorem leaves_subset_entryLeaves {entries : Table} {entry : String × Value}
    (h : entry ∈ entries) : entry.2.leaves ⊆ entryLeaves entries := by
  rw [entryLeaves_eq_flatMap]
  exact fun _ hleaf => List.mem_flatMap.2 ⟨entry, h, hleaf⟩

end Value

theorem Scope.Holds.entryLeaves_subset {scope : Scope} {t : Table} {s : Schema}
    (h : scope.Holds t s) : Value.entryLeaves s.fields ⊆ Value.entryLeaves t := by
  have hitem {t entries : Table} {key : String} {rest : List Value}
      (hmem : (key, .array (.table entries :: rest)) ∈ t) :
      Value.entryLeaves entries ⊆ Value.entryLeaves t :=
    List.Subset.trans (List.subset_append_left ..) (Value.leaves_subset_entryLeaves hmem)
  induction h with
  | table hmem => exact Value.leaves_subset_entryLeaves hmem
  | item hmem => exact hitem hmem
  | belowTable hmem _ ih => exact List.Subset.trans ih (Value.leaves_subset_entryLeaves hmem)
  | belowItem hmem _ ih => exact List.Subset.trans ih (hitem hmem)

namespace Emitter

/-- A value that an accessor falls back to stands in the configuration. -/
theorem leaves_subset_of_mem_places {tree : Table} {place : Scope × String × Value}
    (h : place ∈ places (Catalog.collect tree) tree) :
    place.2.2.leaves ⊆ Value.entryLeaves tree := by
  obtain h | h := List.mem_append.1 h
  · obtain ⟨s, hs, h⟩ := List.mem_flatMap.1 h
    unfold methodPlaces at h
    split at h
    · cases h
    · obtain ⟨field, hfield, rfl⟩ := List.mem_map.1 h
      have hholds := Catalog.mem_collect (Catalog.mem_sorted.1 hs)
      exact List.Subset.trans
        (Value.leaves_subset_entryLeaves (Schema.mem_sortedFields.1 hfield))
        hholds.entryLeaves_subset
  · obtain ⟨entry, hentry, rfl⟩ := List.mem_map.1 h
    exact Value.leaves_subset_entryLeaves
      (Table.mem_sortByKey.1 (List.mem_filter.1 hentry).1)

theorem mem_leaves_of_mem_placeInt64s {place : Scope × String × Value} {n : Int}
    {fieldTypes : FieldTypes} (h : n ∈ placeInt64s fieldTypes place) :
    .integer n ∈ place.2.2.leaves :=
  (Value.leaves_sorted_perm _).mem_iff.1 (Value.mem_leaves_of_mem_int64s h)

theorem mem_entryLeaves_of_mem_int64s {mode : Mode} {tree : Table} {n : Int}
    (h : n ∈ int64s mode tree (Catalog.collect tree)) : .integer n ∈ Value.entryLeaves tree := by
  cases mode with
  | static =>
      obtain ⟨entry, hentry, hn⟩ := List.mem_flatMap.1 h
      exact Value.leaves_subset_entryLeaves (Table.mem_sortByKey.1 hentry)
        (mem_leaves_of_mem_placeInt64s hn)
  | getter =>
      obtain ⟨place, hplace, hn⟩ := List.mem_flatMap.1 h
      unfold accessorInt64s at hn
      split at hn
      · cases hn
      · exact leaves_subset_of_mem_places hplace (mem_leaves_of_mem_placeInt64s hn)

end Emitter

end TypedConfig
