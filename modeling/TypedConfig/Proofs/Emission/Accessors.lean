import TypedConfig.Proofs.Emission.Leaves
import TypedConfig.Proofs.Override.Leaves
import TypedConfig.Proofs.Schema.Closure
import TypedConfig.Proofs.Value.Keys
import Mathlib.Data.List.Forall2

namespace TypedConfig

open Go (Accessor Declaration Literal SourceFile)

namespace Go

def Declaration.accessor? : Declaration → Option Accessor
  | .accessor a => some a
  | _ => none

def SourceFile.accessors (f : SourceFile) : List Accessor :=
  f.declarations.filterMap Declaration.accessor?

namespace Accessor

/-- The variable that an accessor looks up. There is none for tables, arrays and values without a
type of their own. -/
def lookedUp? (a : Accessor) : Option String :=
  match a.kind with
  | .table | .array | .tableArray | .any => none
  | .string | .integer | .float | .bool | .duration | .bytes => some a.variableName

theorem eq_of_lookedUp {a : Accessor} {name : String} (h : a.lookedUp? = some name) :
    name = a.variableName := by
  unfold lookedUp? at h
  split at h <;> cases h <;> rfl

theorem body_of_lookedUp {a : Accessor} {name : String} (h : a.lookedUp? = some name) :
    ∃ result ∈ ["v", "path"], ∃ rest,
      a.parts.body = "\tif " ++ result ++ " := os.Getenv(" ++ quote name ++ rest := by
  obtain ⟨receiver, method, type, kind, variableName, fallback⟩ := a
  cases kind with
  | table | array | tableArray | any => cases h
  | bytes =>
      cases h
      refine ⟨"path", by simp, ?_⟩
      simp only [parts, AccessorParts.body, String.append_assoc]
      exact ⟨_, rfl⟩
  | string | integer | float | bool | duration =>
      cases h
      refine ⟨"v", by simp, ?_⟩
      simp only [parts, AccessorParts.body, String.append_assoc]
      exact ⟨_, rfl⟩

/-- The other accessors return what is configured at once. -/
theorem body_of_not_lookedUp {a : Accessor} (h : a.lookedUp? = none) :
    ∃ comment ∈ ["", "\t// Arrays cannot be overridden via environment variables.\n"],
      ∃ result ∈ [a.parts.type ++ "\x7b\x7d", a.parts.fallback],
        a.parts.body = comment ++ "\treturn " ++ result ++ "\n" := by
  obtain ⟨receiver, method, type, kind, variableName, fallback⟩ := a
  cases kind with
  | table =>
      refine ⟨_, .head _, _, .head _, ?_⟩
      simp [parts, AccessorParts.body, String.append_assoc]
  | array | tableArray =>
      refine ⟨_, .tail _ (.head _), _, .tail _ (.head _), ?_⟩
      simp only [parts, AccessorParts.body, String.append_assoc]
  | any =>
      refine ⟨_, .head _, _, .tail _ (.head _), ?_⟩
      simp [parts, AccessorParts.body, String.append_assoc]
  | bytes | string | integer | float | bool | duration => cases h

end Accessor

end Go

namespace Value

def isScalar : Value → Bool
  | .string _ | .integer _ | .float _ | .boolean _ => true
  | _ => false

variable {v : Value}

theorem isLeaf_of_isScalar (h : v.isScalar) : v.isLeaf := by
  cases v <;> first | rfl | cases h

theorem isScalar_of_lookedUp {a : Accessor} {name : String} (hkind : a.kind = v.kind)
    (h : a.lookedUp? = some name) : v.isScalar := by
  rw [Accessor.lookedUp?, hkind] at h
  cases v with
  | array items =>
      cases items with
      | nil => cases h
      | cons first rest => cases first <;> cases h
  | table | moment | absent => cases h
  | _ => rfl

end Value

namespace Build

variable {σ : Type} [FileSystem σ] {store : σ} {before after : Progress}

/-- The literal of a scalar. A string stands for a duration or for the content of a file where it
means one. -/
inductive IsLiteralOf (store : σ) (loader : Loader) : Literal → Value → Prop
  | integer (n : Int) : IsLiteralOf store loader (.integer n) (.integer n)
  | float (x : Binary64) : IsLiteralOf store loader (.float x) (.float x)
  | boolean (b : Bool) : IsLiteralOf store loader (.boolean b) (.boolean b)
  | plain {text : String} (meaning : Value.meaning text = .plain) :
      IsLiteralOf store loader (.string text) (.string text)
  | duration {text : String} {nanoseconds : Int}
      (meaning : Value.meaning text = .duration nanoseconds) :
      IsLiteralOf store loader (.duration nanoseconds) (.string text)
  | bytes {text : String} {content : ByteArray} (meaning : Value.meaning text = .reference)
      (loaded : loader.Supplies store text content) :
      IsLiteralOf store loader (.bytes content.toList) (.string text)

theorem IsLiteralOf.mono {loader later : Loader} {l : Literal} {v : Value}
    (h : IsLiteralOf store loader l v) (hext : loader.Extends later) :
    IsLiteralOf store later l v := by
  cases h with
  | integer n => exact .integer n
  | float x => exact .float x
  | boolean b => exact .boolean b
  | plain meaning => exact .plain meaning
  | duration meaning => exact .duration meaning
  | bytes meaning loaded => exact .bytes meaning (loaded.mono hext)

theorem isLiteralOf_string {text : String} {l : Literal}
    (h : Yields (string store text) before l after) :
    IsLiteralOf store after.loader l (.string text) := by
  unfold string at h
  cases hm : Value.meaning text with
  | reference =>
      simp only [hm, yields_bind, yields_pure] at h
      obtain ⟨content, _, hload, rfl, rfl⟩ := h
      exact .bytes hm (Loader.kept_of_load (kept_of_yields_load hload)).2
  | duration n =>
      simp only [hm, yields_bind, yields_pure] at h
      obtain ⟨_, _, _, rfl, -⟩ := h
      exact .duration hm
  | plain =>
      simp only [hm, yields_pure] at h
      obtain ⟨rfl, -⟩ := h
      exact .plain hm

theorem isLiteralOf_field {scope : Scope} {key : String} {v : Value} {l : Literal}
    (hscalar : v.isScalar) (h : Yields (field store scope key v) before l after) :
    IsLiteralOf store after.loader l v := by
  have hfield : field store scope key v = literal store v := by
    rw [field.eq_def]
    cases v <;> first | rfl | cases hscalar
  rw [hfield, literal.eq_def] at h
  cases v with
  | string text => exact isLiteralOf_string h
  | integer n =>
      obtain ⟨rfl, -⟩ := yields_integer h
      exact .integer n
  | float x =>
      unfold float at h
      cases x with
      | finite x =>
          obtain ⟨rfl, -⟩ := (yields_pure _ _).1 h
          exact .float _
      | nan | infinite =>
          simp only [yields_bind, yields_pure] at h
          obtain ⟨_, _, _, rfl, -⟩ := h
          exact .float _
  | boolean b =>
      obtain ⟨rfl, -⟩ := (yields_pure _ _).1 h
      exact .boolean b
  | moment | array | table | absent => cases hscalar

/-- What has been loaded is kept from one step to the next. -/
theorem extends_of_mapM {α β : Type} {f : α → Build β}
    (hf : ∀ {x b y c}, Yields (f x) b y c → b.loader.Extends c.loader) {xs : List α} {ys : List β}
    (h : Yields (xs.mapM f) before ys after) :
    before.loader.Extends after.loader ∧ List.Forall₂
      (fun x y => ∃ b c, Yields (f x) b y c ∧ c.loader.Extends after.loader) xs ys := by
  induction xs generalizing before ys with
  | nil =>
      rw [List.mapM_nil] at h
      obtain ⟨rfl, rfl⟩ := (yields_pure _ _).1 h
      exact ⟨.refl _, .nil⟩
  | cons x xs ih =>
      rw [List.mapM_cons] at h
      simp only [yields_bind, yields_pure] at h
      obtain ⟨y, _, hy, ys, _, hys, rfl, rfl⟩ := h
      obtain ⟨hext, hall⟩ := ih hys
      exact ⟨(hf hy).trans hext, .cons ⟨_, _, hy, hext⟩ hall⟩

end Build

namespace Scope.Holds

variable {scope : Scope} {t : Table} {s : Schema}

/-- All types below the element of an array are in that array. -/
theorem inArray_of_scope (h : scope.Holds t s) (hscope : scope.inArray) : s.inArray := by
  induction h with
  | table _ | item _ => simp [child, hscope]
  | belowTable _ _ ih | belowItem _ _ ih => exact ih (by simp [child, hscope])

/-- The leaves of a type that is in no array are leaves of the configuration, at the path of the
type. -/
theorem leaves_subset (h : scope.Holds t s) (hs : s.inArray = false) :
    Override.entryLeaves (s.path.map .key) s.fields ⊆
      Override.entryLeaves (scope.path.map .key) t := by
  have hstep {scope : Scope} {t entries : Table} {key : String}
      (hmem : (key, .table entries) ∈ t) :
      Override.entryLeaves ((scope.child key .config).path.map .key) entries ⊆
        Override.entryLeaves (scope.path.map .key) t := by
    intro leaf hleaf
    rw [Override.entryLeaves_eq_flatMap _ t]
    refine List.mem_flatMap.2 ⟨_, hmem, ?_⟩
    simpa [Scope.child, Override.valueLeaves] using hleaf
  induction h with
  | table hmem => exact hstep hmem
  | item hmem =>
      rw [child, beq_self_eq_true, Bool.or_true] at hs
      cases hs
  | belowTable hmem _ ih => exact List.Subset.trans (ih hs) (hstep hmem)
  | belowItem hmem below _ =>
      -- Everything below an array is in it, whatever path leads there.
      have harray := below.inArray_of_scope (by rw [child, beq_self_eq_true, Bool.or_true])
      rw [hs] at harray
      cases harray

end Scope.Holds

namespace Emitter

open Build (Yields)

variable {σ : Type} [FileSystem σ] {e : Emitter} {store : σ} {loader later : Loader}
  {before after : Progress}

/-- The accessor of a value at a key of this scope, what it falls back to having been made while
nothing but this had been loaded. -/
structure AccessorOf (e : Emitter) (store : σ) (loader : Loader) (scope : Scope)
    (field : String × Value) (a : Accessor) : Prop where
  receiver : a.receiver = scope.name
  name : a.name = Naming.pascalCase field.1
  type : a.type = scope.fieldType field.1 field.2
  kind : a.kind = field.2.kind
  variableName : a.variableName =
    Naming.variableName e.variablePrefix ((scope.path ++ [field.1]).map .key)
  fallback : ∃ before after, Yields (fallback store scope field.1 field.2) before a.fallback after ∧
    after.loader.Extends loader

theorem AccessorOf.mono {scope : Scope} {field : String × Value} {a : Accessor}
    (h : e.AccessorOf store loader scope field a) (hext : loader.Extends later) :
    e.AccessorOf store later scope field a := by
  obtain ⟨before, after, hfallback, hafter⟩ := h.fallback
  exact { h with fallback := ⟨before, after, hfallback, hafter.trans hext⟩ }

abbrev AccessorsOf (e : Emitter) (store : σ) (loader : Loader)
    (places : List (Scope × String × Value)) (accessors : List Accessor) : Prop :=
  List.Forall₂ (fun place => e.AccessorOf store loader place.1 place.2) places accessors

def methodPlaces (s : Schema) : List (Scope × String × Value) :=
  if s.inArray then [] else s.sortedFields.map fun field => (s.scope, field)

/-- The places of the accessors of an emitted file: those of the methods of all record types, and
those of the functions. -/
def places (catalog : Catalog) (tree : Table) : List (Scope × String × Value) :=
  catalog.sorted.flatMap methodPlaces ++
    ((Table.sortByKey tree).filter (!·.2.isTable)).map fun entry => (.root, entry)

theorem extends_of_fallback {scope : Scope} {key : String} {v : Value}
    {literal : Option Literal} (h : Yields (fallback store scope key v) before literal after) :
    before.loader.Extends after.loader := by
  unfold fallback at h
  split at h
  · obtain ⟨-, rfl⟩ := (Build.yields_pure _ _).1 h
    exact .refl _
  · obtain ⟨l, hl, -⟩ := (Build.yields_map _ _ _).1 h
    exact (Build.transcribes_field key v hl).loader

theorem accessorOf_of_yields {scope : Scope} {field : String × Value} {d : Declaration}
    (h : Yields (e.accessor store scope field.1 field.2) before d after) :
    before.loader.Extends after.loader ∧
      ∃ a, d = .accessor a ∧ e.AccessorOf store after.loader scope field a := by
  rw [accessor_eq] at h
  simp only [Build.yields_bind, Build.yields_pure] at h
  obtain ⟨_, between, hfallback, _, _, hrequire, rfl, rfl⟩ := h
  have hext := extends_of_fallback hfallback
  rw [Build.eq_of_requireAll hrequire]
  exact ⟨hext, _, rfl, rfl, rfl, rfl, rfl, rfl, _, _, hfallback, .refl _⟩

theorem accessorsOf_of_mapM {scope : Scope} {fields : Table} {ds : List Declaration}
    (h : Yields (fields.mapM fun field => e.accessor store scope field.1 field.2) before ds after) :
    before.loader.Extends after.loader ∧
      e.AccessorsOf store after.loader (fields.map fun field => (scope, field))
        (ds.filterMap Declaration.accessor?) := by
  obtain ⟨hext, hall⟩ := Build.extends_of_mapM (fun h => (accessorOf_of_yields h).1) h
  refine ⟨hext, List.forall₂_map_left_iff.2 ?_⟩
  clear h hext
  induction hall with
  | nil => exact .nil
  | cons hd _ ih =>
      obtain ⟨_, _, hd, hext⟩ := hd
      obtain ⟨-, a, rfl, ha⟩ := accessorOf_of_yields hd
      exact .cons (ha.mono hext) ih

theorem accessors_types (schemas : List Schema) :
    (schemas.map (typeDeclaration .getter)).filterMap Declaration.accessor? = [] := by
  rw [List.filterMap_map, List.filterMap_eq_nil_iff]
  intro s _
  rw [Function.comp_apply, typeDeclaration]
  cases s.inArray <;> rfl

theorem accessorsOf_methods {s : Schema} {ds : List Declaration}
    (h : Yields (e.methods store s) before ds after) :
    before.loader.Extends after.loader ∧
      e.AccessorsOf store after.loader (methodPlaces s) (ds.filterMap Declaration.accessor?) := by
  unfold methods at h
  unfold methodPlaces
  split at h
  · next harray =>
    obtain ⟨rfl, rfl⟩ := (Build.yields_pure _ _).1 h
    rw [if_pos harray]
    exact ⟨.refl _, .nil⟩
  · next harray =>
    rw [if_neg harray]
    exact accessorsOf_of_mapM h

theorem accessorsOf_allMethods {schemas : List Schema} {methods : List (List Declaration)}
    (h : Yields (schemas.mapM (e.methods store)) before methods after) :
    e.AccessorsOf store after.loader (schemas.flatMap methodPlaces)
      (methods.flatten.filterMap Declaration.accessor?) := by
  obtain ⟨-, hall⟩ := Build.extends_of_mapM (fun h => (accessorsOf_methods h).1) h
  clear h
  induction hall with
  | nil => exact .nil
  | cons hds _ ih =>
      obtain ⟨_, _, hds, hext⟩ := hds
      rw [List.flatMap_cons, List.flatten_cons, List.filterMap_append]
      exact List.rel_append ((accessorsOf_methods hds).2.imp fun _ _ hof => hof.mono hext) ih

/-- The accessors of an emitted file are, one for one and in order, those of its places. -/
theorem accessors_emit (hmode : e.mode = .getter) {tree : Table} {catalog : Catalog}
    {f : SourceFile} (h : Yields (e.emit store tree catalog) before f after) :
    e.AccessorsOf store after.loader (places catalog tree) f.accessors := by
  obtain ⟨methods, values, between, last, hmethods, hvalues, hloader, hds⟩ := parts_of_emit h
  rw [SourceFile.accessors, hds, hmode, List.filterMap_append, List.filterMap_append,
    accessors_types, List.nil_append, hloader]
  unfold methodsOfAll at hmethods
  unfold Emitter.values at hvalues
  simp only [hmode] at hmethods hvalues
  simp only [getterValues, Build.yields_bind, Build.yields_pure] at hvalues
  obtain ⟨accessors, _, haccessors, rfl, rfl⟩ := hvalues
  have hinstances (members : List Go.Variable) : (if members.isEmpty then [] else
      [Declaration.group members]).filterMap Declaration.accessor? = [] := by
    split <;> rfl
  rw [List.filterMap_append, hinstances, List.append_nil]
  obtain ⟨hext, hvalues⟩ := accessorsOf_of_mapM haccessors
  refine List.rel_append ?_ hvalues
  exact (accessorsOf_allMethods hmethods).imp fun _ _ hof => hof.mono hext

theorem owner_of_mem_methodPlaces {s : Schema} {place : Scope × String × Value}
    (h : place ∈ methodPlaces s) : place.1.name = some s.name := by
  unfold methodPlaces at h
  split at h
  · cases h
  · obtain ⟨field, -, rfl⟩ := List.mem_map.1 h
    rfl

theorem filter_methodPlaces_self (s : Schema) :
    (methodPlaces s).filter (·.1.name == some s.name) = methodPlaces s :=
  List.filter_eq_self.2 fun _ hplace => beq_iff_eq.2 (owner_of_mem_methodPlaces hplace)

theorem filter_methodPlaces_of_ne {s other : Schema} (h : other.name ≠ s.name) :
    (methodPlaces other).filter (·.1.name == some s.name) = [] := by
  refine List.filter_eq_nil_iff.2 fun place hplace hname => ?_
  rw [beq_iff_eq, owner_of_mem_methodPlaces hplace] at hname
  exact h (Option.some.inj hname)

/-- Of all places, those of a record type are its methods. -/
theorem filter_allMethodPlaces {schemas : List Schema} (hnames : (schemas.map Schema.name).Nodup)
    {s : Schema} (hs : s ∈ schemas) :
    (schemas.flatMap methodPlaces).filter (·.1.name == some s.name) = methodPlaces s := by
  induction schemas with
  | nil => cases hs
  | cons first rest ih =>
      obtain ⟨hfirst, hrest⟩ := List.nodup_cons.1 hnames
      rw [List.flatMap_cons, List.filter_append]
      obtain rfl | hs := List.mem_cons.1 hs
      · have hothers : (rest.flatMap methodPlaces).filter (·.1.name == some s.name) = [] := by
          rw [List.filter_flatMap, List.flatMap_eq_nil_iff]
          intro other hother
          refine filter_methodPlaces_of_ne fun hname => hfirst ?_
          exact hname ▸ List.mem_map_of_mem hother
        rw [filter_methodPlaces_self, hothers, List.append_nil]
      · have hname : first.name ≠ s.name := fun hname => hfirst (hname ▸ List.mem_map_of_mem hs)
        rw [filter_methodPlaces_of_ne hname, List.nil_append, ih hrest hs]

theorem methods_of_type {tree : Table} {accessors : List Accessor}
    (h : e.AccessorsOf store loader (places (Catalog.collect tree) tree) accessors) {s : Schema}
    (hs : s ∈ (Catalog.collect tree).schemas) :
    e.AccessorsOf store loader (methodPlaces s)
      (accessors.filter (·.receiver == some s.name)) := by
  have hperm := (Catalog.collect tree).sorted_perm
  have hnames := (hperm.map Schema.name).nodup_iff.2 (Catalog.nodup_collect tree)
  have htop (entries : Table) : (entries.map fun entry => (Scope.root, entry)).filter
      (·.1.name == some s.name) = [] := by
    refine List.filter_eq_nil_iff.2 fun place hplace hname => ?_
    obtain ⟨entry, -, rfl⟩ := List.mem_map.1 hplace
    cases hname
  have hown : (places (Catalog.collect tree) tree).filter (·.1.name == some s.name) =
      methodPlaces s := by
    rw [places, List.filter_append, filter_allMethodPlaces hnames (hperm.mem_iff.2 hs), htop,
      List.append_nil]
  rw [← hown]
  refine List.rel_filter (fun _ _ hof => ?_) h
  dsimp only
  rw [hof.receiver]

/-- A leaf at the place of an accessor is visited by overrides at the same path. -/
theorem mem_leaves_of_mem_places {tree : Table} {place : Scope × String × Value}
    (h : place ∈ places (Catalog.collect tree) tree) (hleaf : place.2.2.isLeaf) :
    ((place.1.path ++ [place.2.1]).map .key, place.2.2) ∈ Override.entryLeaves [] tree := by
  rw [List.map_append]
  obtain h | h := List.mem_append.1 h
  · obtain ⟨s, hs, h⟩ := List.mem_flatMap.1 h
    unfold methodPlaces at h
    split at h
    · cases h
    · next harray =>
      obtain ⟨field, hfield, rfl⟩ := List.mem_map.1 h
      have hholds := Catalog.mem_collect (Catalog.mem_sorted.1 hs)
      exact hholds.leaves_subset (eq_false_of_ne_true harray)
        (Override.mem_entryLeaves (Schema.mem_sortedFields.1 hfield) hleaf)
  · obtain ⟨entry, hentry, rfl⟩ := List.mem_map.1 h
    have hmem := Table.mem_sortByKey.1 (List.mem_filter.1 hentry).1
    exact Override.mem_entryLeaves hmem hleaf

/-- What an accessor of a scalar falls back to is the literal of the scalar. -/
theorem AccessorOf.fallback_of_isScalar {scope : Scope} {field : String × Value} {a : Accessor}
    (h : e.AccessorOf store loader scope field a) (hscalar : field.2.isScalar) :
    ∃ l, Build.IsLiteralOf store loader l field.2 ∧ a.fallback = some l := by
  obtain ⟨before, after, hfallback, hext⟩ := h.fallback
  have htable : ¬ field.2.isTable := by
    have hleaf := Value.isLeaf_of_isScalar hscalar
    rw [Value.isLeaf, Bool.and_eq_true, Bool.not_eq_true'] at hleaf
    simp [hleaf.1]
  rw [Emitter.fallback, if_neg htable] at hfallback
  obtain ⟨l, hl, hsome⟩ := (Build.yields_map _ _ _).1 hfallback
  exact ⟨l, (Build.isLiteralOf_field hscalar hl).mono hext, hsome.symm⟩

/-- The accessors of an emitted file stand, one for one, at the values of record types that are in
no array and at those of the configuration that are no tables. The variable that an accessor looks
up is the one that overrides look up for the leaf at this very place, and what it falls back to is
the literal of this leaf, a file being what was loaded for it during the emission. A record type
that is in no array has one accessor for each of its fields, in the order of their keys, and the
others have none. -/
theorem accessors_of_leaves (hmode : e.mode = .getter) {tree : Table} {f : SourceFile}
    (h : Yields (e.emit store tree (Catalog.collect tree)) before f after) :
    List.Forall₂ (fun place a => a.receiver = place.1.name ∧
        a.name = Naming.pascalCase place.2.1 ∧
        ∀ name, a.lookedUp? = some name →
          (∃ result ∈ ["v", "path"], ∃ rest,
            a.parts.body = "\tif " ++ result ++ " := os.Getenv(" ++ Go.quote name ++ rest) ∧
          ((place.1.path ++ [place.2.1]).map .key, place.2.2) ∈ Override.entryLeaves [] tree ∧
          (∀ environment, name = (⟨e.variablePrefix, environment⟩ : Override.Source).variableName
            ((place.1.path ++ [place.2.1]).map .key)) ∧
          ∃ l, Build.IsLiteralOf store after.loader l place.2.2 ∧ a.fallback = some l)
      (places (Catalog.collect tree) tree) f.accessors ∧
    ∀ s ∈ (Catalog.collect tree).schemas,
      (s.inArray → ∀ a ∈ f.accessors, a.receiver ≠ some s.name) ∧
      (s.inArray = false →
        List.Forall₂ (fun field a => a.name = Naming.pascalCase field.1 ∧
            a.type = s.fieldType field.1 field.2 ∧ a.kind = field.2.kind)
          s.sortedFields (f.accessors.filter (·.receiver == some s.name)) ∧
        s.sortedFields.Perm s.fields ∧ (Table.keys s.sortedFields).Pairwise (· ≤ ·)) := by
  have hall := accessors_emit hmode h
  constructor
  · have hplaces := (List.forall₂_and_left _ _).2
      ⟨fun place (hplace : place ∈ places (Catalog.collect tree) tree) => hplace, hall⟩
    refine hplaces.imp fun place a ⟨hplace, hof⟩ => ⟨hof.receiver, hof.name, fun name hname => ?_⟩
    -- What looks up a variable stands at a leaf, since tables and arrays of them are no scalars.
    have hscalar := Value.isScalar_of_lookedUp hof.kind hname
    refine ⟨Accessor.body_of_lookedUp hname, mem_leaves_of_mem_places hplace
      (Value.isLeaf_of_isScalar hscalar), fun environment => ?_, hof.fallback_of_isScalar hscalar⟩
    rw [Accessor.eq_of_lookedUp hname, hof.variableName]
    rfl
  · intro s hs
    have hmethods := methods_of_type hall hs
    constructor
    · intro harray a ha hreceiver
      rw [AccessorsOf, methodPlaces, if_pos harray, List.forall₂_nil_left_iff] at hmethods
      exact List.filter_eq_nil_iff.1 hmethods a ha (beq_iff_eq.2 hreceiver)
    · intro harray
      rw [AccessorsOf, methodPlaces, if_neg (by simp [harray]), List.forall₂_map_left_iff]
        at hmethods
      exact ⟨hmethods.imp fun _ _ hof => ⟨hof.name, hof.type, hof.kind⟩, s.sortedFields_perm,
        Table.pairwise_keys_sortByKey s.fields⟩

def sameName : Table :=
  [("a_b", .table [("y", .boolean false)]), ("a", .table [("b", .table [("x", .string "file:a")])])]

def sameNameSchema : Schema :=
  ⟨"ABConfig", ["a", "b"], [("x", .string "file:a")], false⟩

def sameNameContent : ByteArray :=
  ⟨#[7]⟩

def sameNameStore : FileStore :=
  ⟨[(["a"], ⟨1, sameNameContent⟩)], [], [], 2⟩

def sameNameLoader : Loader :=
  ⟨none, 0, [(⟨.slash, ["a"]⟩, sameNameContent)]⟩

def sameNameAccessor : Accessor :=
  ⟨some "ABConfig", "X", .slice .byte, .bytes, "CONFIG_A_B_X",
    some (.bytes sameNameContent.toList)⟩

def sameNameFile : SourceFile :=
  ⟨"config", [.os], [.placeholder "ABConfig", .placeholder "AConfig",
    .accessor sameNameAccessor,
    .accessor ⟨some "AConfig", "B", .named "ABConfig", .table, "CONFIG_A_B", none⟩,
    .group [⟨"A", some (.named "AConfig"), none⟩, ⟨"AB", some (.named "ABConfig"), none⟩]]⟩

theorem yields_sameName :
    Yields (emit ⟨.getter, "config", "CONFIG"⟩ sameNameStore sameName (Catalog.collect sameName))
      ⟨.new none 0, []⟩ sameNameFile ⟨sameNameLoader, [.os]⟩ := by
  have hsorted : Table.sortByKey sameName = sameName.reverse := rfl
  have hcatalog : (Catalog.collect sameName).sorted = [sameNameSchema,
    ⟨"AConfig", ["a"], [("b", .table [("x", .string "file:a")])], false⟩] := rfl
  have hfield : Build.field sameNameStore sameNameSchema.scope "x" (.string "file:a") =
      Build.string sameNameStore "file:a" := by
    rw [Build.field.eq_def]
    exact Build.literal.eq_def sameNameStore _
  have hx (e : Emitter) : e.accessor sameNameStore sameNameSchema.scope "x" (.string "file:a") = do
      let literal ← Build.string sameNameStore "file:a"
      Build.require .os
      return .accessor { sameNameAccessor with
        variableName := Naming.variableName e.variablePrefix [.key "a", .key "b", .key "x"]
        fallback := some literal } := by
    simp only [accessor, hfield, bind_map_left]
    rfl
  have hmethods (e : Emitter) : e.methods sameNameStore sameNameSchema = do
      let method ← e.accessor sameNameStore sameNameSchema.scope "x" (.string "file:a")
      return [method] :=
    rfl
  rw [emit_eq]
  simp only [methodsOfAll, values, getterValues, hsorted, hcatalog, List.mapM_cons, List.mapM_nil,
    hmethods, hx]
  rfl

/-- The method of the type whose name two tables share looks up the variable of the table that is
kept, and falls back to the file that is named there. -/
theorem accessors_of_leaves_sameName :
    Yields (emit ⟨.getter, "config", "CONFIG"⟩ sameNameStore sameName (Catalog.collect sameName))
        ⟨.new none 0, []⟩ sameNameFile ⟨sameNameLoader, [.os]⟩ ∧
      places (Catalog.collect sameName) sameName =
        [(sameNameSchema.scope, "x", .string "file:a"),
          (⟨some "AConfig", ["a"], false⟩, "b", .table [("x", .string "file:a")])] ∧
      (sameNameFile.accessors.head? = some sameNameAccessor ∧
        sameNameAccessor.lookedUp? = some "CONFIG_A_B_X" ∧
        ([.key "a", .key "b", .key "x"], .string "file:a") ∈ Override.entryLeaves [] sameName ∧
        (∀ environment, "CONFIG_A_B_X" = (⟨"CONFIG", environment⟩ : Override.Source).variableName
          [.key "a", .key "b", .key "x"]) ∧
        ∃ l, Build.IsLiteralOf sameNameStore sameNameLoader l (.string "file:a") ∧
          sameNameAccessor.fallback = some l) ∧
      sameNameSchema ∈ (Catalog.collect sameName).schemas ∧
      List.Forall₂ (fun field a => a.name = Naming.pascalCase field.1 ∧
          a.type = sameNameSchema.fieldType field.1 field.2 ∧ a.kind = field.2.kind)
        sameNameSchema.sortedFields
        (sameNameFile.accessors.filter (·.receiver == some sameNameSchema.name)) := by
  have hschemas : (Catalog.collect sameName).schemas.getLast? = some sameNameSchema := rfl
  have hs := List.mem_of_getLast? hschemas
  obtain ⟨hleaves, hmethods⟩ := accessors_of_leaves rfl yields_sameName
  have hplaces : places (Catalog.collect sameName) sameName =
      [(sameNameSchema.scope, "x", .string "file:a"),
        (⟨some "AConfig", ["a"], false⟩, "b", .table [("x", .string "file:a")])] := rfl
  rw [hplaces] at hleaves
  obtain ⟨⟨-, -, hx⟩, -⟩ := List.forall₂_cons.1 hleaves
  exact ⟨yields_sameName, hplaces, ⟨rfl, rfl, (hx _ rfl).2⟩, hs, ((hmethods _ hs).2 rfl).1⟩

end Emitter

end TypedConfig
