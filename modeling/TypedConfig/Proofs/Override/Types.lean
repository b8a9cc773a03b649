import TypedConfig.Proofs.Override.Replacement
import TypedConfig.Proofs.Schema.Outline

/-!
The types of an overridden configuration. What no variable is set for keeps its type, and so do
booleans and numbers. A string may get another of the types of strings, since what it stands for is
read off its text (`Source.apply_keeps_types`).
-/

namespace TypedConfig

open Go (GoType)

def Value.isUnread : Value → Bool
  | .moment _ | .absent | .array (.moment _ :: _) | .array (.array _ :: _)
  | .array (.absent :: _) => true
  | _ => false

def Value.keepsKind : Value → Bool
  | .boolean _ | .integer _ | .float _ => true
  | _ => false

def Naming.Step.key? : Naming.Step → Option String
  | .key name => some name
  | .index _ => none

namespace Override

variable {source : Source} {tree t entries : Table} {path : List String} {place : Path}
  {key text : String} {v w : Value}

/-- The type of a leaf that a text replaces. A string has the type of the text, and an array that
starts with a string the type of the first part of the text for its elements. Of values that no text
is read as nothing is said, and all others keep their type. -/
def TypeReplaced (text : String) (before after : GoType) : Value → Prop
  | .string _ => after = GoType.ofValue (.string text)
  | .array (.string _ :: _) => after = .slice (GoType.ofValue (.string (firstPart text)))
  | v => v.isUnread ∨ after = before

/-- A field of the table at this place, and what has become of it. Its type is the same, unless it
is a leaf whose variable is set. -/
structure FieldKept (source : Source) (place : Path) (before after : Scope)
    (e f : String × Value) : Prop where
  key : f.1 = e.1
  kept : e.2.isLeaf = false ∨ source.text? (place ++ [.key e.1]) = none →
    after.fieldType f.1 f.2 = before.fieldType e.1 e.2
  replaced : ∀ text, e.2.isLeaf → source.text? (place ++ [.key e.1]) = some text →
    TypeReplaced text (before.fieldType e.1 e.2) (after.fieldType f.1 f.2) e.2

/-- The table that these keys lead to is overridden at this place: a step for every key, and one for
the first table of every array on the way. -/
structure Reaches (tree : Table) (path : List String) (place : Path) (entries : Table) : Prop where
  keys : place.filterMap Naming.Step.key? = path
  first : ∀ i, .index i ∈ place → i = 0
  leaves : entryLeaves place entries ⊆ entryLeaves [] tree

structure SchemaKept (source : Source) (tree : Table) (s t : Schema) : Prop where
  name : t.name = s.name
  path : t.path = s.path
  inArray : t.inArray = s.inArray
  fields : ∃ place, Reaches tree s.path place s.fields ∧
    List.Forall₂ (FieldKept source place s.scope t.scope) s.fields t.fields

structure TypesKept (source : Source) (tree overridden : Table) : Prop where
  names : (Catalog.collect overridden).names = (Catalog.collect tree).names
  schemas : List.Forall₂ (SchemaKept source tree) (Catalog.collect tree).schemas
    (Catalog.collect overridden).schemas
  values : List.Forall₂ (FieldKept source [] .root .root) tree overridden

/-- Where the table is overridden that a value is or, of an array of tables, the first one. -/
def recordPlace (place : Path) (v : Value) : Path :=
  if v.isTable then place else place ++ [.index 0]

theorem reaches_root (tree : Table) : Reaches tree [] [] tree :=
  ⟨rfl, fun _ h => absurd h List.not_mem_nil, List.Subset.refl _⟩

theorem Reaches.record (h : Reaches tree path place t) (hmem : (key, v) ∈ t)
    (hrecord : v.record? = some entries) :
    Reaches tree (path ++ [key]) (recordPlace (place ++ [.key key]) v) entries := by
  have hkeys : (place ++ [Naming.Step.key key]).filterMap Naming.Step.key? = path ++ [key] := by
    rw [List.filterMap_append, h.keys]
    rfl
  have hfirst : ∀ i, .index i ∈ place ++ [.key key] → i = 0 :=
    fun i hi => h.first i (by simpa using hi)
  have hleaves : valueLeaves (place ++ [.key key]) v ⊆ entryLeaves [] tree := by
    refine List.Subset.trans ?_ h.leaves
    rw [entryLeaves_eq_flatMap]
    exact fun _ hleaf => List.mem_flatMap.2 ⟨_, hmem, hleaf⟩
  obtain rfl | ⟨rest, rfl⟩ := Value.eq_of_record? hrecord
  · exact ⟨hkeys, hfirst, hleaves⟩
  · refine ⟨?_, fun i hi => ?_, List.Subset.trans (List.subset_append_left _ _) hleaves⟩
    · exact (List.filterMap_append ..).trans (by rw [hkeys]; exact List.append_nil _)
    · obtain hi | hi := List.mem_append.1 hi
      · exact hfirst i hi
      · cases List.mem_singleton.1 hi
        rfl

theorem record?_replaced (hrecord : v.record? = some entries) (place : Path) :
    (source.replaced place v).record? =
      some (source.replacedEntries (recordPlace place v) entries) := by
  obtain rfl | ⟨rest, rfl⟩ := Value.eq_of_record? hrecord
  · rfl
  · rfl

theorem suffix_replaced (hrecord : v.record? = some entries) (place : Path) :
    (source.replaced place v).suffix = v.suffix := by
  obtain rfl | ⟨rest, rfl⟩ := Value.eq_of_record? hrecord
  · rfl
  · rfl

/-- The text replaces any string, also as the element of an array. -/
theorem convertArray_string (text original : String) :
    ∃ rest, convertArray text (.string original) = .ok (.string (firstPart text) :: rest) := by
  unfold convertArray firstPart
  obtain ⟨part, parts, hparts⟩ := List.exists_cons_of_ne_nil (splitCommas_ne_nil text.toList)
  rw [hparts]
  exact ⟨_, List.mapM_pure⟩

theorem ofValue_of_converted (h : Converted text v w) (hv : v.keepsKind) :
    GoType.ofValue w = GoType.ofValue v := by
  cases h with
  | boolean | integer | float => rfl
  | string hboolean hinteger hfloat =>
      cases v with
      | boolean b => exact absurd rfl (hboolean b)
      | integer n => exact absurd rfl (hinteger n)
      | float x => exact absurd rfl (hfloat x)
      | _ => cases hv

theorem ofValue_of_replaceLeaf (hv : v.keepsKind)
    (h : Source.replaceLeaf text v = .ok (some w)) : GoType.ofValue w = GoType.ofValue v := by
  unfold Source.replaceLeaf at h
  split at h
  · cases h
  · cases hv
  · obtain ⟨converted, hconvert, hw⟩ := exists_of_map_eq_ok h
    obtain rfl := Option.some.inj hw
    exact ofValue_of_converted (converted_of_convert hconvert) hv

theorem ofValue_of_replaceArray {sample : Value} {rest : List Value} (hsample : sample.keepsKind)
    (h : Source.replaceLeaf text (.array (sample :: rest)) = .ok (some w)) :
    GoType.ofValue w = GoType.ofValue (.array (sample :: rest)) := by
  obtain ⟨items, hitems, hw⟩ := exists_of_map_eq_ok h
  obtain ⟨first, others, rfl, hfirst⟩ := converted_of_convertArray hitems
  obtain rfl := Option.some.inj hw
  rw [GoType.ofValue, GoType.ofValue, ofValue_of_converted hfirst hsample]

/-- What stands in the place of a leaf that a text may replace. -/
theorem typeReplaced_of_replaceLeaf (hv : v.isLeaf) (text : String) :
    TypeReplaced text (GoType.ofValue v) (GoType.ofValue (match Source.replaceLeaf text v with
      | .ok (some w) => w
      | _ => v)) v := by
  cases v with
  | string original => rfl
  | moment | absent => exact .inl rfl
  | integer | float | boolean =>
      refine .inr ?_
      split
      · next h => exact ofValue_of_replaceLeaf rfl h
      · rfl
  | table entries => cases hv
  | array items =>
      cases items with
      | nil => exact .inr rfl
      | cons sample rest =>
        cases sample with
        | string original =>
            -- Any text can be split into strings, so no conflict keeps the array.
            obtain ⟨items, hitems⟩ := convertArray_string text original
            rw [Source.replaceLeaf, hitems]
            rfl
        | moment | absent | array => exact .inl rfl
        | integer | float | boolean =>
            refine .inr ?_
            split
            · next h => exact ofValue_of_replaceArray rfl h
            · rfl
        | table entries => cases hv

theorem typeReplaced_replacedLeaf (hv : v.isLeaf) (hset : source.text? place = some text) :
    TypeReplaced text (GoType.ofValue v) (GoType.ofValue (source.replacedLeaf place v)) v := by
  have hlookUp : lookUp source.environment (source.variableName place) = some text := hset
  rw [Source.replacedLeaf, hlookUp]
  exact typeReplaced_of_replaceLeaf hv text

theorem fieldType_replaced {before after : Scope} (hname : after.name = before.name)
    (hrecord : v.record? = some entries) :
    after.fieldType key (source.replaced place v) = before.fieldType key v := by
  have htypeName (suffix : Naming.Suffix) :
      after.typeName key suffix = before.typeName key suffix := by
    rw [Scope.typeName, Scope.typeName, hname]
  obtain rfl | ⟨rest, rfl⟩ := Value.eq_of_record? hrecord
  · exact congrArg GoType.named (htypeName _)
  · exact congrArg (GoType.slice ∘ GoType.named) (htypeName _)

theorem fieldKept_replaced {before after : Scope} (hname : after.name = before.name)
    (e : String × Value) :
    FieldKept source place before after e
      (e.1, source.replaced (place ++ [.key e.1]) e.2) := by
  cases hleaf : e.2.isLeaf with
  | false =>
      have hrecord : e.2.record?.isSome := by simpa [Value.isLeaf_eq] using hleaf
      obtain ⟨entries, hrecord⟩ := Option.isSome_iff_exists.1 hrecord
      refine ⟨rfl, fun _ => fieldType_replaced hname hrecord, fun text h => ?_⟩
      rw [hleaf] at h
      cases h
  | true =>
      have hreplaced : (source.replacedLeaf (place ++ [.key e.1]) e.2).isLeaf :=
        Source.isLeaf_replacedLeaf hleaf
      rw [Source.replaced_of_isLeaf hleaf]
      refine ⟨rfl, fun h => ?_, fun text _ hset => ?_⟩
      · have hunset : lookUp source.environment
            (source.variableName (place ++ [.key e.1])) = none :=
          h.resolve_left (by simp [hleaf])
        rw [Scope.fieldType_of_isLeaf _ _ hreplaced, Scope.fieldType_of_isLeaf _ _ hleaf,
          Source.replacedLeaf, hunset]
      · rw [Scope.fieldType_of_isLeaf _ _ hreplaced, Scope.fieldType_of_isLeaf _ _ hleaf]
        exact typeReplaced_replacedLeaf hleaf hset

theorem fieldsKept_replacedEntries {before after : Scope} (hname : after.name = before.name)
    (place : Path) (entries : Table) :
    List.Forall₂ (FieldKept source place before after) entries
      (source.replacedEntries place entries) := by
  rw [Source.replacedEntries_eq_map, List.forall₂_map_right_iff]
  exact List.forall₂_same.2 fun e _ => fieldKept_replaced hname e

abbrev CatalogKept (source : Source) (tree : Table) (c d : Catalog) : Prop :=
  List.Forall₂ (SchemaKept source tree) c.schemas d.schemas

variable {scope : Scope} {c d : Catalog}

theorem scopes_of_schemasKept {ss ts : List Schema}
    (h : List.Forall₂ (SchemaKept source tree) ss ts) :
    ts.map Schema.scope = ss.map Schema.scope := by
  induction h with
  | nil => rfl
  | cons hst _ ih =>
      rw [List.map_cons, List.map_cons, ih, Schema.scope, Schema.scope, hst.name, hst.path,
        hst.inArray]

theorem names_of_schemasKept {ss ts : List Schema}
    (h : List.Forall₂ (SchemaKept source tree) ss ts) :
    ts.map Schema.name = ss.map Schema.name := by
  induction h with
  | nil => rfl
  | cons hst _ ih => rw [List.map_cons, List.map_cons, ih, hst.name]

theorem CatalogKept.add (h : CatalogKept source tree c d) {s s' : Schema}
    (hs : SchemaKept source tree s s') : CatalogKept source tree (c.add s) (d.add s') := by
  rw [CatalogKept, Catalog.schemas_add, Catalog.schemas_add, hs.name,
    Catalog.contains_of_scopes (scopes_of_schemasKept h)]
  split
  · exact h
  · exact List.rel_append h (.cons hs .nil)

theorem CatalogKept.addEntries
    (hvisit : ∀ e ∈ entries, ∀ c d, CatalogKept source tree c d →
      CatalogKept source tree (Catalog.addValue scope e.1 c e.2)
        (Catalog.addValue scope e.1 d (source.replaced (place ++ [.key e.1]) e.2)))
    (h : CatalogKept source tree c d) :
    CatalogKept source tree (Catalog.addEntries scope c entries)
      (Catalog.addEntries scope d (source.replacedEntries place entries)) := by
  rw [Catalog.addEntries_eq_foldl, Catalog.addEntries_eq_foldl, Source.replacedEntries_eq_map,
    Table.sortByKey_map, List.foldl_map]
  exact List.foldl_rel h fun e he => hvisit e (Table.mem_sortByKey.1 he)

/-- Visiting a value and what has become of it adds record types of the same names. -/
theorem CatalogKept.addValue (hmem : (key, v) ∈ t) (hreaches : Reaches tree scope.path place t)
    (h : CatalogKept source tree c d) :
    CatalogKept source tree (Catalog.addValue scope key c v)
      (Catalog.addValue scope key d (source.replaced (place ++ [.key key]) v)) := by
  induction v using Value.record_induction generalizing scope key place t c d with
  | leaf v hv =>
      rw [Catalog.addValue_of_isLeaf _ _ _ hv, Catalog.addValue_of_isLeaf]
      · exact h
      · rw [Source.replaced_of_isLeaf hv]
        exact Source.isLeaf_replacedLeaf hv
  | record v entries hrecord ih =>
      -- The names are the same so far, so either both visits stop or both go on.
      have hbelow := hreaches.record hmem hrecord
      rw [Catalog.addValue_of_record? hrecord,
        Catalog.addValue_of_record? (record?_replaced hrecord _), suffix_replaced hrecord]
      dsimp only
      rw [Catalog.contains_of_scopes (scopes_of_schemasKept h)]
      split
      · exact h
      · refine CatalogKept.addEntries (fun e he c d => ih e he he hbelow) (h.add ?_)
        exact ⟨rfl, rfl, rfl, _, hbelow, fieldsKept_replacedEntries rfl _ _⟩

theorem catalogKept_collect (source : Source) (tree : Table) :
    CatalogKept source tree (Catalog.collect tree)
      (Catalog.collect (source.replacedEntries [] tree)) :=
  CatalogKept.addEntries (fun _ he _ _ => CatalogKept.addValue he (reaches_root tree)) .nil

theorem CatalogKept.names_eq (h : CatalogKept source tree c d) : d.names = c.names := by
  have hsort (c : Catalog) : c.names =
      Sorting.sort (fun a b => decide (a ≤ b)) (c.schemas.map Schema.name) := by
    rw [Catalog.names, Catalog.sorted]
    refine Sorting.map_sort Schema.name ?_ c.schemas
    exact fun _ _ => rfl
  rw [hsort, hsort, names_of_schemasKept h]

/-- A pass ends well exactly if no variable that is set for a leaf fails to convert, and otherwise
with the error of the first. If it ends well, no type has changed but those of strings and of values
that no text is read as, each where its own variable is set. -/
theorem Source.apply_keeps_types (source : Source) (applied : List String) (tree : Table) :
    (source.apply applied tree).2.failure = (entryLeaves [] tree).findSome? source.conflict? ∧
      ((source.apply applied tree).2.failure = none →
        TypesKept source tree (source.apply applied tree).1) := by
  refine ⟨failure_apply source applied tree, fun h => ?_⟩
  rw [apply_eq_replaced h]
  have hcatalog := catalogKept_collect source tree
  exact ⟨hcatalog.names_eq, hcatalog, fieldsKept_replacedEntries rfl _ _⟩

def deployment : Table :=
  [("port", .integer 80), ("timeout", .string "30s"),
    ("hosts", .array [.table [("name", .string "a"), ("wait", .string "1s")]])]

def redeployment : Source :=
  ⟨"CONFIG", [("CONFIG_PORT", "8080"), ("CONFIG_HOSTS_0_NAME", "5s")]⟩

/-- The name of the host becomes a duration, and all else keeps its type. -/
theorem apply_keeps_types_deployment :
    (redeployment.apply [] deployment).1 = [("port", .integer 8080), ("timeout", .string "30s"),
        ("hosts", .array [.table [("name", .string "5s"), ("wait", .string "1s")]])] ∧
      (redeployment.apply [] deployment).2.failure = none ∧
      TypesKept redeployment deployment (redeployment.apply [] deployment).1 :=
  ⟨by rfl, by rfl, (Source.apply_keeps_types redeployment [] deployment).2 (by rfl)⟩

/-- A duration may become a string that is none. -/
theorem Source.not_all_types_kept : ¬ ∀ (source : Source) (tree : Table),
    (source.apply [] tree).2.failure = none →
      (source.apply [] tree).1.map (fun e => Scope.root.fieldType e.1 e.2) =
        tree.map fun e => Scope.root.fieldType e.1 e.2 := by
  intro h
  have htypes := h ⟨"CONFIG", [("CONFIG_TIMEOUT", "soon")]⟩ [("timeout", .string "30s")]
    (by decide +kernel)
  exact absurd htypes (by decide +kernel)

end Override

end TypedConfig
