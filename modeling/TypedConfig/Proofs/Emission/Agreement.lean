import TypedConfig.Proofs.Emission.Refusals

namespace TypedConfig

def Loader.Shares {σ τ : Type} [FileSystem σ] [FileSystem τ] (store : σ) (store' : τ)
    (loader loader' : Loader) (text : String) : Prop :=
  ∃ content, loader.Supplies store text content ∧ loader'.Supplies store' text content

namespace Build

variable {σ τ : Type} [FileSystem σ] [FileSystem τ] {α β : Type} {loader loader' : Loader}
  {store : σ} {store' : τ}

/-- With a loader at hand for each, the steps return or fail alike and note the same packages, and
both leave the loaders as they are. -/
def Agree (loader loader' : Loader) (x y : Build α) : Prop :=
  ∀ packages, ∃ result noted, outcome x ⟨loader, packages⟩ = (result, ⟨loader, noted⟩) ∧
    outcome y ⟨loader', packages⟩ = (result, ⟨loader', noted⟩)

theorem agree_pure (a : α) : Agree loader loader' (pure a) (pure a) :=
  fun packages => ⟨.ok a, packages, rfl, rfl⟩

theorem Agree.bind {x y : Build α} {f g : α → Build β} (hx : Agree loader loader' x y)
    (hf : ∀ a, Agree loader loader' (f a) (g a)) : Agree loader loader' (x >>= f) (y >>= g) := by
  intro packages
  obtain ⟨result, noted, hx, hy⟩ := hx packages
  cases result with
  | error e => exact ⟨.error e, noted, outcome_bind_of_error hx, outcome_bind_of_error hy⟩
  | ok a =>
      rw [outcome_bind_of_ok hx, outcome_bind_of_ok hy]
      exact hf a noted

theorem Agree.map {x y : Build α} (hx : Agree loader loader' x y) (f : α → β) :
    Agree loader loader' (f <$> x) (f <$> y) := by
  rw [map_eq_pure_bind, map_eq_pure_bind]
  exact hx.bind fun a => agree_pure (f a)

theorem agree_require (package : Go.Package) :
    Agree loader loader' (require package) (require package) :=
  fun packages => ⟨.ok ⟨⟩, packages ++ [package], rfl, rfl⟩

theorem agree_noted (f : List Go.Package → α) :
    Agree loader loader' (do return f (← get).packages) (do return f (← get).packages) :=
  fun packages => ⟨.ok (f packages), packages, rfl, rfl⟩

theorem agree_ofExcept (result : Except BuildError α) : Agree loader loader'
    (MonadExcept.ofExcept result : Build α) (MonadExcept.ofExcept result) :=
  fun packages => ⟨result, packages, outcome_ofExcept _, outcome_ofExcept _⟩

theorem agree_mapM {f g : α → Build β} {xs : List α}
    (hf : ∀ x ∈ xs, Agree loader loader' (f x) (g x)) :
    Agree loader loader' (xs.mapM f) (xs.mapM g) := by
  induction xs with
  | nil => exact agree_pure []
  | cons x xs ih =>
      obtain ⟨hx, hxs⟩ := List.forall_mem_cons.1 hf
      rw [List.mapM_cons, List.mapM_cons]
      exact hx.bind fun y => (ih hxs).bind fun ys => agree_pure (y :: ys)

theorem agree_requireAll (packages : List Go.Package) :
    Agree loader loader' (packages.forM require) (packages.forM require) := by
  induction packages with
  | nil => exact agree_pure ()
  | cons package packages ih => exact (agree_require package).bind fun _ => ih

theorem outcome_load_of_supplies {text : String} {content : ByteArray}
    (h : loader.Supplies store text content) (packages : List Go.Package) :
    outcome (load store text) ⟨loader, packages⟩ = (.ok content, ⟨loader, packages⟩) :=
  outcome_load_of_ok h.outcome_load

theorem agree_load {text : String} (h : Loader.Shares store store' loader loader' text) :
    Agree loader loader' (load store text) (load store' text) := by
  obtain ⟨content, hl, hr⟩ := h
  exact fun packages => ⟨.ok content, packages, outcome_load_of_supplies hl packages,
    outcome_load_of_supplies hr packages⟩

theorem agree_string {text : String}
    (h : ∀ reference ∈ (Value.string text).references,
      Loader.Shares store store' loader loader' reference) :
    Agree loader loader' (string store text) (string store' text) := by
  unfold string
  split
  · next hmeaning =>
    refine (agree_load (h text ?_)).bind fun content => agree_pure _
    rw [Value.references, if_pos (Value.meaning_eq_reference_iff.1 hmeaning)]
    exact List.mem_singleton_self text
  · exact (agree_require .time).bind fun _ => agree_pure _
  · exact agree_pure _

theorem agree_float (x : Binary64) : Agree loader loader' (float x) (float x) := by
  unfold float
  split
  · exact agree_pure _
  · exact (agree_require .math).bind fun _ => agree_pure _

theorem agree_element {keepsStrings : Bool} {v : Value}
    (hshared : ∀ reference ∈ v.references, Loader.Shares store store' loader loader' reference)
    (hv : Agree loader loader' (literal store v) (literal store' v)) :
    Agree loader loader' (element store keepsStrings v) (element store' keepsStrings v) := by
  rw [element.eq_def, element.eq_def]
  split
  · split
    · exact agree_pure _
    · exact agree_string hshared
  · exact hv

mutual

theorem agree_literal : ∀ v : Value,
    (∀ reference ∈ v.references, Loader.Shares store store' loader loader' reference) →
      Agree loader loader' (literal store v) (literal store' v)
  | .string text, hshared => by
      rw [literal.eq_def, literal.eq_def]
      exact agree_string hshared
  | .integer n, _ => by
      rw [literal.eq_def, literal.eq_def]
      exact (agree_ofExcept _).bind fun _ => agree_pure _
  | .float x, _ => by
      rw [literal.eq_def, literal.eq_def]
      exact agree_float x
  | .boolean _, _ | .moment _, _ | .array [], _ | .table _, _ | .absent, _ => by
      rw [literal.eq_def, literal.eq_def]
      exact agree_pure _
  | .array (first :: rest), hshared => by
      rw [Value.references, Value.itemReferences, List.forall_mem_append] at hshared
      rw [literal_cons, literal_cons]
      split
      · exact agree_pure _
      · exact (agree_element hshared.1 (agree_literal first hshared.1)).bind fun _ =>
          (agree_elements rest hshared.2).bind fun _ => agree_pure _

theorem agree_elements {keepsStrings : Bool} : ∀ items : List Value,
    (∀ reference ∈ Value.itemReferences items,
      Loader.Shares store store' loader loader' reference) →
      Agree loader loader' (elements store keepsStrings items)
        (elements store' keepsStrings items)
  | [], _ => by
      rw [elements, elements]
      exact agree_pure _
  | v :: rest, hshared => by
      rw [Value.itemReferences, List.forall_mem_append] at hshared
      rw [elements, elements]
      exact (agree_element hshared.1 (agree_literal v hshared.1)).bind fun _ =>
        (agree_elements rest hshared.2).bind fun _ => agree_pure _

end

theorem agree_fields {scope : Scope} {entries : Table}
    (h : ∀ e ∈ entries, Agree loader loader' (field store scope e.1 e.2)
      (field store' scope e.1 e.2)) :
    Agree loader loader' (fields store scope entries) (fields store' scope entries) := by
  rw [fields_eq_mapM, fields_eq_mapM]
  exact agree_mapM fun e he => (h e (Table.mem_sortByKey.1 he)).bind
    fun _ => agree_pure _

mutual

theorem agree_field {scope : Scope} (key : String) : ∀ v : Value,
    (∀ reference ∈ v.references, Loader.Shares store store' loader loader' reference) →
      Agree loader loader' (field store scope key v) (field store' scope key v)
  | .table entries, hshared => by
      rw [field_table, field_table]
      exact (agree_fields (agree_eachField entries hshared)).bind fun _ => agree_pure _
  | .array items, hshared => by
      rw [field_array, field_array]
      split
      · exact (agree_records items hshared).bind fun _ => agree_pure _
      · exact agree_literal _ hshared
  | .string _, hshared | .integer _, hshared | .float _, hshared | .boolean _, hshared
  | .moment _, hshared | .absent, hshared => by
      rw [field.eq_def, field.eq_def]
      exact agree_literal _ hshared

theorem agree_eachField {scope : Scope} : ∀ entries : List (String × Value),
    (∀ reference ∈ Value.entryReferences entries,
      Loader.Shares store store' loader loader' reference) →
      ∀ e ∈ entries, Agree loader loader' (field store scope e.1 e.2) (field store' scope e.1 e.2)
  | [], _ => List.forall_mem_nil _
  | (key, v) :: rest, hshared => by
      rw [Value.entryReferences, List.forall_mem_append] at hshared
      exact List.forall_mem_cons.2 ⟨agree_field key v hshared.1, agree_eachField rest hshared.2⟩

theorem agree_records {scope : Scope} : ∀ items : List Value,
    (∀ reference ∈ Value.itemReferences items,
      Loader.Shares store store' loader loader' reference) →
      Agree loader loader' (records store scope items) (records store' scope items)
  | [], _ => by
      rw [records.eq_def, records.eq_def]
      exact agree_pure _
  | .table entries :: rest, hshared => by
      rw [Value.itemReferences, List.forall_mem_append] at hshared
      rw [records_table, records_table]
      exact (agree_fields (agree_eachField entries hshared.1)).bind fun _ =>
        (agree_records rest hshared.2).bind fun _ => agree_pure _
  | .string _ :: rest, hshared | .integer _ :: rest, hshared | .float _ :: rest, hshared
  | .boolean _ :: rest, hshared | .moment _ :: rest, hshared | .array _ :: rest, hshared
  | .absent :: rest, hshared => by
      rw [Value.itemReferences, List.forall_mem_append] at hshared
      rw [records.eq_def, records.eq_def]
      exact agree_records rest hshared.2

end

end Build

namespace Emitter

open Build (Agree)

variable {σ τ : Type} [FileSystem σ] [FileSystem τ] {loader loader' : Loader}
  {store : σ} {store' : τ}

theorem agree_assignment (key : String) {v : Value}
    (hshared : ∀ reference ∈ v.references, Loader.Shares store store' loader loader' reference) :
    Agree loader loader' (assignment store key v) (assignment store' key v) := by
  unfold assignment
  split
  · exact Build.agree_pure _
  · exact (Build.agree_field key v hshared).bind fun _ => Build.agree_pure _

theorem agree_accessor (e : Emitter) (scope : Scope) (key : String) {v : Value}
    (hshared : ∀ reference ∈ v.references, Loader.Shares store store' loader loader' reference) :
    Agree loader loader' (e.accessor store scope key v) (e.accessor store' scope key v) := by
  rw [accessor_eq, accessor_eq]
  refine Agree.bind ?_ fun fallback => (Build.agree_requireAll _).bind fun _ => Build.agree_pure _
  unfold fallback
  split
  · exact Build.agree_pure none
  · exact (Build.agree_field key v hshared).map some

theorem agree_methods (e : Emitter) {s : Schema}
    (hshared : ∀ reference ∈ Value.entryReferences s.fields,
      Loader.Shares store store' loader loader' reference) :
    Agree loader loader' (e.methods store s) (e.methods store' s) := by
  unfold methods
  split
  · exact Build.agree_pure _
  · refine Build.agree_mapM fun f hf => e.agree_accessor _ _ fun reference hreference => ?_
    refine hshared reference ((Value.entryReferences_sortByKey_perm s.fields).mem_iff.1 ?_)
    exact Value.mem_entryReferences hf hreference

theorem agree_file (e : Emitter) (tree : Table) (ds : List Go.Declaration) :
    Agree loader loader' (e.file tree ds) (e.file tree ds) := by
  have hfile : Agree loader loader' _ _ := Build.agree_noted fun packages =>
    (⟨e.package, Go.Package.all.filter (packages.contains ·), ds⟩ : Go.SourceFile)
  unfold file
  split
  · exact (Build.agree_require _).bind fun _ => hfile
  · exact hfile

theorem agree_emit (e : Emitter) {tree : Table}
    (hshared : ∀ reference ∈ Value.entryReferences tree,
      Loader.Shares store store' loader loader' reference) :
    Agree loader loader' (e.emit store tree (Catalog.collect tree))
      (e.emit store' tree (Catalog.collect tree)) := by
  have hentry (entry : String × Value) (hentry : entry ∈ Table.sortByKey tree) :
      ∀ reference ∈ entry.2.references, Loader.Shares store store' loader loader' reference :=
    fun reference hreference => hshared reference
      (Value.mem_entryReferences (Table.mem_sortByKey.1 hentry) hreference)
  rw [emit_eq, emit_eq]
  refine Agree.bind ?_ fun methods => Agree.bind ?_ fun values => e.agree_file _ _
  · unfold methodsOfAll
    split
    · exact Build.agree_pure []
    · refine Build.agree_mapM fun s hs => e.agree_methods fun reference hreference => ?_
      have hholds := Catalog.mem_collect (Catalog.mem_sorted.1 hs)
      exact hshared reference (hholds.mem_entryReferences hreference)
  · unfold values
    split
    · exact (Build.agree_mapM fun entry hmem => agree_assignment entry.1 (hentry entry hmem)).bind
        fun _ => Build.agree_pure _
    · exact (Build.agree_mapM fun entry hmem => e.agree_accessor _ _
        (hentry entry (List.mem_filter.1 hmem).1)).bind fun _ => Build.agree_pure _

end Emitter

end TypedConfig
