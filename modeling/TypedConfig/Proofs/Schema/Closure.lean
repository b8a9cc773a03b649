import TypedConfig.Proofs.Schema.Path

/-!
Collecting record types leaves none of them out: the types of the tables below a record type are
collected too, if not from there then from where their names were met first
(`Catalog.closed_collect`).
-/

namespace TypedConfig

def Catalog.Covers (catalog : Catalog) (scope : Scope) (key : String) (v : Value) : Prop :=
  v.record?.isSome → catalog.contains (scope.typeName key v.suffix)

def Schema.ClosedIn (s : Schema) (catalog : Catalog) : Prop :=
  ∀ e ∈ s.fields, catalog.Covers s.scope e.1 e.2

namespace Catalog

variable {c d after : Catalog} {scope : Scope} {key name : String} {v : Value} {s : Schema}

theorem contains_iff : c.contains name ↔ ∃ s ∈ c.schemas, s.name = name := by
  simp [contains]

theorem mem_names : name ∈ c.names ↔ c.contains name := by
  rw [names, List.mem_map, contains_iff]
  simp only [mem_sorted]

theorem schemas_add (c : Catalog) (s : Schema) :
    (c.add s).schemas = if c.contains s.name then c.schemas else c.schemas ++ [s] := by
  unfold add
  split <;> rfl

theorem contains_add (c : Catalog) (s : Schema) (name : String) :
    (c.add s).contains name ↔ c.contains name ∨ s.name = name := by
  rw [contains_iff, contains_iff, schemas_add]
  split
  · next h =>
    refine (or_iff_left_of_imp ?_).symm
    rintro rfl
    exact contains_iff.1 h
  · simp [or_and_right, exists_or]

theorem nodup_add (h : (c.schemas.map Schema.name).Nodup) (s : Schema) :
    ((c.add s).schemas.map Schema.name).Nodup := by
  rw [schemas_add]
  split
  · exact h
  · next hnew =>
    rw [List.map_append, List.nodup_append]
    refine ⟨h, by simp, fun name hname other hother => ?_⟩
    rw [List.mem_singleton.1 hother]
    rintro rfl
    exact hnew (contains_iff.2 (List.mem_map.1 hname))

/-- What a visit leaves behind: names stay, none comes twice, and the types that it adds are closed,
even those whose tables are still being visited when others below them come to be added. -/
structure Grows (c d : Catalog) : Prop where
  contains : ∀ {name}, c.contains name → d.contains name
  nodup : (c.schemas.map Schema.name).Nodup → (d.schemas.map Schema.name).Nodup
  closed : ∀ s ∈ d.schemas, s ∈ c.schemas ∨ s.ClosedIn d

theorem Grows.covers (h : Grows c d) (hv : c.Covers scope key v) : d.Covers scope key v :=
  fun hrecord => h.contains (hv hrecord)

theorem Grows.refl (c : Catalog) : Grows c c :=
  ⟨id, id, fun _ => .inl⟩

theorem Grows.trans (h : Grows c d) (hafter : Grows d after) : Grows c after := by
  refine ⟨fun hname => hafter.contains (h.contains hname),
    fun hnodup => hafter.nodup (h.nodup hnodup), fun s hs => ?_⟩
  obtain hs | hs := hafter.closed s hs
  · exact (h.closed s hs).imp_right fun hclosed e he => hafter.covers (hclosed e he)
  · exact .inr hs

/-- A type that was added is closed when the visit to its fields has ended. -/
theorem Grows.of_add (h : Grows (c.add s) d) (hfields : s.ClosedIn d) : Grows c d := by
  refine ⟨fun hname => h.contains ((contains_add c s _).2 (.inl hname)),
    fun hnodup => h.nodup (nodup_add hnodup s), fun other hother => ?_⟩
  obtain hmem | hclosed := h.closed other hother
  · obtain hmem | rfl := mem_add hmem
    · exact .inl hmem
    · exact .inr hfields
  · exact .inr hclosed

/-- Visits that each leave their own value covered leave all of them covered. -/
theorem grows_foldl {entries : Table}
    (hvisit : ∀ e ∈ entries, ∀ c, Grows c (addValue scope e.1 c e.2) ∧
      (addValue scope e.1 c e.2).Covers scope e.1 e.2) (c : Catalog) :
    Grows c (entries.foldl (fun c e => addValue scope e.1 c e.2) c) ∧
      ∀ e ∈ entries,
        (entries.foldl (fun c e => addValue scope e.1 c e.2) c).Covers scope e.1 e.2 := by
  induction entries generalizing c with
  | nil => exact ⟨.refl c, List.forall_mem_nil _⟩
  | cons entry entries ih =>
      obtain ⟨hfirst, hothers⟩ := List.forall_mem_cons.1 hvisit
      obtain ⟨hgrows, hcovers⟩ := hfirst c
      obtain ⟨hrest, hall⟩ := ih hothers (addValue scope entry.1 c entry.2)
      exact ⟨hgrows.trans hrest, List.forall_mem_cons.2 ⟨hrest.covers hcovers, hall⟩⟩

theorem grows_addEntries_of {entries : Table}
    (hvisit : ∀ e ∈ entries, ∀ c, Grows c (addValue scope e.1 c e.2) ∧
      (addValue scope e.1 c e.2).Covers scope e.1 e.2) (c : Catalog) :
    Grows c (addEntries scope c entries) ∧
      ∀ e ∈ entries, (addEntries scope c entries).Covers scope e.1 e.2 := by
  rw [addEntries_eq_foldl]
  obtain ⟨hgrows, hcovers⟩ :=
    grows_foldl (fun e he => hvisit e (Table.mem_sortByKey.1 he)) c
  exact ⟨hgrows, fun e he => hcovers e (Table.mem_sortByKey.2 he)⟩

/-- Where a name is taken nothing is added, and a type that is added is closed only once all its
fields have been visited. -/
theorem grows_addValue (v : Value) (scope : Scope) (key : String) (c : Catalog) :
    Grows c (addValue scope key c v) ∧ (addValue scope key c v).Covers scope key v := by
  induction v using Value.record_induction generalizing scope key c with
  | leaf v hv =>
      rw [addValue_of_isLeaf _ _ _ hv]
      refine ⟨.refl c, fun hrecord => ?_⟩
      rw [Value.isLeaf_eq, Option.isNone_iff_eq_none] at hv
      rw [hv] at hrecord
      cases hrecord
  | record v entries hrecord ih =>
      rw [addValue_of_record? hrecord]
      dsimp only
      split
      · next htaken => exact ⟨.refl c, fun _ => htaken⟩
      · obtain ⟨hgrows, hcovers⟩ := grows_addEntries_of (fun e he c => ih e he _ _ c) _
        exact ⟨hgrows.of_add hcovers, fun _ => hgrows.contains ((contains_add ..).2 (.inr rfl))⟩

theorem grows_collect (tree : Table) : Grows empty (collect tree) :=
  (grows_addEntries_of (fun e _ c => grows_addValue e.2 _ _ c) empty).1

/-- The types of all tables in a record type are collected with it, however many paths share their
names. -/
theorem closed_collect (tree : Table) : ∀ s ∈ (collect tree).schemas, s.ClosedIn (collect tree) :=
  fun s hs => ((grows_collect tree).closed s hs).resolve_left List.not_mem_nil

/-- No two record types of a catalog have the same name. -/
theorem nodup_collect (tree : Table) : ((collect tree).schemas.map Schema.name).Nodup :=
  (grows_collect tree).nodup List.nodup_nil

end Catalog

theorem Value.isSome_record?_of_kind {v : Value} (h : v.kind = .table ∨ v.kind = .tableArray) :
    v.record?.isSome := by
  obtain h | h := h
  · obtain ⟨entries, rfl⟩ := exists_of_kind_table h
    rfl
  · obtain ⟨entries, rest, rfl⟩ := exists_of_kind_tableArray h
    rfl

theorem Scope.fieldType_of_record? {scope : Scope} {key : String} {v : Value}
    (h : v.record?.isSome) :
    scope.fieldType key v = .named (scope.typeName key v.suffix) ∨
      scope.fieldType key v = .slice (.named (scope.typeName key v.suffix)) := by
  obtain ⟨entries, hrecord⟩ := Option.isSome_iff_exists.1 h
  obtain rfl | ⟨rest, rfl⟩ := Value.eq_of_record? hrecord
  · exact .inl rfl
  · exact .inr rfl

end TypedConfig
