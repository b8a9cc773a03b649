import TypedConfig.Proofs.Emission.Run
import TypedConfig.Proofs.Files.Loading
import TypedConfig.Proofs.Schema.Catalog

namespace TypedConfig

def Decimal.IsWritable (n : Int) : Prop :=
  n.natAbs < Nat.pow 10 maxDigits

namespace Value

mutual

def leafIntegers : Value → List Int
  | .integer n => [n]
  | .array (first :: rest) =>
    if first.isTable then [] else first.leafIntegers ++ itemIntegers rest
  | _ => []

def itemIntegers : List Value → List Int
  | [] => []
  | v :: rest => v.leafIntegers ++ itemIntegers rest

end

mutual

def integers : Value → List Int
  | .table entries => entryIntegers entries
  | .array items =>
    if isTableArray (.array items) then recordIntegers items else leafIntegers (.array items)
  | v => v.leafIntegers

def entryIntegers : List (String × Value) → List Int
  | [] => []
  | (_, v) :: rest => v.integers ++ entryIntegers rest

def recordIntegers : List Value → List Int
  | [] => []
  | .table entries :: rest => entryIntegers entries ++ recordIntegers rest
  | _ :: rest => recordIntegers rest

end

def accessorIntegers (v : Value) : List Int :=
  if v.isTable then [] else v.integers

theorem mem_entryIntegers {n : Int} {entries : Table} :
    n ∈ entryIntegers entries ↔ ∃ e ∈ entries, n ∈ e.2.integers := by
  induction entries with
  | nil => simp [entryIntegers]
  | cons entry entries ih => simp [entryIntegers, ih]

end Value

theorem Scope.Holds.mem_entryReferences {scope : Scope} {t : Table} {s : Schema} {text : String}
    (h : scope.Holds t s) (htext : text ∈ Value.entryReferences s.fields) :
    text ∈ Value.entryReferences t := by
  induction h with
  | table hmem => exact Value.mem_entryReferences hmem htext
  | item hmem => exact Value.mem_entryReferences hmem (List.mem_append_left _ htext)
  | belowTable hmem _ ih => exact Value.mem_entryReferences hmem (ih htext)
  | belowItem hmem _ ih => exact Value.mem_entryReferences hmem (List.mem_append_left _ (ih htext))

namespace Build

variable {σ : Type} [FileSystem σ] {α β : Type} {loader : Loader} {store : σ} {ns ms : List Int}

/-- Whenever this loader is at hand, the step leaves it as it is, and fails exactly for the
integers among these that are too long to write. -/
def Writes (loader : Loader) (ns : List Int) (x : Build α) : Prop :=
  ∀ p : Progress, p.loader = loader → (outcome x p).2.loader = loader ∧
    ((∃ a, (outcome x p).1 = .ok a) ∧ (∀ n ∈ ns, Decimal.IsWritable n) ∨
      (outcome x p).1 = .error (.number .writing) ∧ ∃ n ∈ ns, ¬ Decimal.IsWritable n)

theorem writes_pure (a : α) : Writes loader [] (pure a) :=
  fun _ hp => ⟨hp, .inl ⟨⟨a, rfl⟩, by simp⟩⟩

theorem Writes.bind {x : Build α} {f : α → Build β} (hx : Writes loader ns x)
    (hf : ∀ a, Writes loader ms (f a)) : Writes loader (ns ++ ms) (x >>= f) := by
  intro p hp
  have hxp := hx p hp
  rcases hrun : outcome x p with ⟨e | a, q⟩
  · rw [hrun] at hxp
    obtain ⟨hkept, ⟨⟨a, ha⟩, -⟩ | ⟨herror, n, hn, hlong⟩⟩ := hxp
    · cases ha
    · rw [outcome_bind_of_error hrun]
      exact ⟨hkept, .inr ⟨congrArg _ (Except.error.inj herror), n, List.mem_append_left ms hn,
        hlong⟩⟩
  · rw [hrun] at hxp
    obtain ⟨hkept, ⟨-, hwritable⟩ | ⟨herror, -⟩⟩ := hxp
    · rw [outcome_bind_of_ok hrun]
      obtain ⟨hlast, ⟨hok, hrest⟩ | ⟨herror, n, hn, hlong⟩⟩ := hf a q hkept
      · exact ⟨hlast, .inl ⟨hok, List.forall_mem_append.2 ⟨hwritable, hrest⟩⟩⟩
      · exact ⟨hlast, .inr ⟨herror, n, List.mem_append_right ns hn, hlong⟩⟩
    · cases herror

theorem Writes.map {x : Build α} (hx : Writes loader ns x) (f : α → β) :
    Writes loader ns (f <$> x) := by
  rw [map_eq_pure_bind, ← List.append_nil ns]
  exact hx.bind fun a => writes_pure (f a)

/-- A step followed by one that writes nothing. -/
theorem Writes.followed {x : Build α} {f : α → Build β} (hx : Writes loader ns x)
    (hf : ∀ a, Writes loader [] (f a)) : Writes loader ns (x >>= f) := by
  rw [← List.append_nil ns]
  exact hx.bind hf

/-- Neither the order of the integers nor how often they come counts. -/
theorem Writes.of_mem_iff {x : Build α} (hx : Writes loader ns x) (h : ∀ n, n ∈ ns ↔ n ∈ ms) :
    Writes loader ms x := by
  simpa only [Writes, h] using hx

theorem writes_require (package : Go.Package) : Writes loader [] (require package) :=
  fun _ hp => ⟨hp, .inl ⟨⟨⟨⟩, rfl⟩, by simp⟩⟩

theorem writes_get : Writes loader [] (get : Build Progress) :=
  fun p hp => ⟨hp, .inl ⟨⟨p, rfl⟩, by simp⟩⟩

theorem writes_mapM {f : α → Build β} {xs : List α} (written : α → List Int)
    (hf : ∀ x ∈ xs, Writes loader (written x) (f x)) :
    Writes loader (xs.flatMap written) (xs.mapM f) := by
  induction xs with
  | nil => exact writes_pure []
  | cons x xs ih =>
      obtain ⟨hx, hxs⟩ := List.forall_mem_cons.1 hf
      rw [List.mapM_cons, List.flatMap_cons]
      exact hx.bind fun y => (ih hxs).followed fun ys => writes_pure (y :: ys)

theorem writes_requireAll (packages : List Go.Package) :
    Writes loader [] (packages.forM require) := by
  induction packages with
  | nil => exact writes_pure ()
  | cons package packages ih => exact (writes_require package).bind fun _ => ih

theorem writes_integer (n : Int) : Writes loader [n] (integer n) := by
  intro p hp
  by_cases hn : n.natAbs < Nat.pow 10 Decimal.maxDigits
  · have hwrite : Decimal.writeInt n = .ok (toString n) := if_pos hn
    have hrun : outcome (integer n) p = (.ok (.integer n), p) := by
      rw [integer, hwrite]
      rfl
    rw [hrun]
    exact ⟨hp, .inl ⟨⟨_, rfl⟩, List.forall_mem_singleton.2 hn⟩⟩
  · have hwrite : Decimal.writeInt n = .error .writing := if_neg hn
    have hrun : outcome (integer n) p = (.error (.number .writing), p) := by
      rw [integer, hwrite]
      rfl
    rw [hrun]
    exact ⟨hp, .inr ⟨rfl, n, List.mem_singleton_self n, hn⟩⟩

theorem outcome_load_of_ok {text : String} {content : ByteArray} {p : Progress}
    (h : outcome (Loader.load store text) p.loader = (.ok content, loader)) :
    outcome (load store text) p = (.ok content, { p with loader }) := by
  have hresult : (Loader.load store text).run p.loader = (.ok content, loader) := h
  rw [load, outcome_bind_of_ok outcome_get]
  simp only [hresult]
  rfl

theorem writes_load {text : String} (h : loader.Holds store text) :
    Writes loader [] (load store text) := by
  rintro p rfl
  obtain ⟨content, hload⟩ := Loader.outcome_load_of_holds h
  rw [outcome_load_of_ok hload]
  exact ⟨rfl, .inl ⟨⟨content, rfl⟩, by simp⟩⟩

theorem writes_string {text : String}
    (h : ∀ reference ∈ (Value.string text).references, loader.Holds store reference) :
    Writes loader [] (string store text) := by
  unfold string
  split
  · next hmeaning =>
    refine (writes_load (h text ?_)).bind fun content => writes_pure _
    rw [Value.references, if_pos (Value.meaning_eq_reference_iff.1 hmeaning)]
    exact List.mem_singleton_self text
  · exact (writes_require .time).bind fun _ => writes_pure _
  · exact writes_pure _

theorem writes_float (x : Binary64) : Writes loader [] (float x) := by
  unfold float
  split
  · exact writes_pure _
  · exact (writes_require .math).bind fun _ => writes_pure _

theorem writes_element {keepsStrings : Bool} {v : Value}
    (hheld : ∀ reference ∈ v.references, loader.Holds store reference)
    (hv : Writes loader v.leafIntegers (literal store v)) :
    Writes loader v.leafIntegers (element store keepsStrings v) := by
  rw [element.eq_def]
  split
  · split
    · exact writes_pure _
    · exact writes_string hheld
  · exact hv

mutual

theorem writes_literal : ∀ v : Value,
    (∀ reference ∈ v.references, loader.Holds store reference) →
      Writes loader v.leafIntegers (literal store v)
  | .string text, hheld => by
      rw [literal.eq_def]
      exact writes_string hheld
  | .integer n, _ => by
      rw [literal.eq_def]
      exact writes_integer n
  | .float x, _ => by
      rw [literal.eq_def]
      exact writes_float x
  | .boolean _, _ | .moment _, _ | .array [], _ | .table _, _ | .absent, _ => by
      rw [literal.eq_def]
      exact writes_pure _
  | .array (first :: rest), hheld => by
      rw [Value.references, Value.itemReferences, List.forall_mem_append] at hheld
      rw [literal_cons, Value.leafIntegers]
      split
      · exact writes_pure _
      · exact (writes_element hheld.1 (writes_literal first hheld.1)).bind fun _ =>
          (writes_elements rest hheld.2).followed fun _ => writes_pure _

theorem writes_elements {keepsStrings : Bool} : ∀ items : List Value,
    (∀ reference ∈ Value.itemReferences items, loader.Holds store reference) →
      Writes loader (Value.itemIntegers items) (elements store keepsStrings items)
  | [], _ => by
      rw [elements]
      exact writes_pure _
  | v :: rest, hheld => by
      rw [Value.itemReferences, List.forall_mem_append] at hheld
      rw [elements, Value.itemIntegers]
      exact (writes_element hheld.1 (writes_literal v hheld.1)).bind fun _ =>
        (writes_elements rest hheld.2).followed fun _ => writes_pure _

end

theorem writes_fields {scope : Scope} {entries : Table}
    (h : ∀ e ∈ entries, Writes loader e.2.integers (field store scope e.1 e.2)) :
    Writes loader (Value.entryIntegers entries) (fields store scope entries) := by
  rw [fields_eq_mapM]
  refine (writes_mapM (fun e : String × Value => e.2.integers) fun e he => ?_).of_mem_iff ?_
  · exact (h e (Table.mem_sortByKey.1 he)).followed fun _ => writes_pure _
  · intro n
    simp only [List.mem_flatMap, Value.mem_entryIntegers, Table.mem_sortByKey]

mutual

theorem writes_field {scope : Scope} (key : String) : ∀ v : Value,
    (∀ reference ∈ v.references, loader.Holds store reference) →
      Writes loader v.integers (field store scope key v)
  | .table entries, hheld => by
      rw [field_table, Value.integers]
      exact (writes_fields (writes_eachField entries hheld)).followed fun _ => writes_pure _
  | .array items, hheld => by
      rw [field_array, Value.integers]
      split
      · exact (writes_records items hheld).followed fun _ => writes_pure _
      · exact writes_literal _ hheld
  | .string _, hheld | .integer _, hheld | .float _, hheld | .boolean _, hheld
  | .moment _, hheld | .absent, hheld => by
      rw [field.eq_def]
      exact writes_literal _ hheld

theorem writes_eachField {scope : Scope} : ∀ entries : List (String × Value),
    (∀ reference ∈ Value.entryReferences entries, loader.Holds store reference) →
      ∀ e ∈ entries, Writes loader e.2.integers (field store scope e.1 e.2)
  | [], _ => List.forall_mem_nil _
  | (key, v) :: rest, hheld => by
      rw [Value.entryReferences, List.forall_mem_append] at hheld
      exact List.forall_mem_cons.2 ⟨writes_field key v hheld.1, writes_eachField rest hheld.2⟩

theorem writes_records {scope : Scope} : ∀ items : List Value,
    (∀ reference ∈ Value.itemReferences items, loader.Holds store reference) →
      Writes loader (Value.recordIntegers items) (records store scope items)
  | [], _ => by
      rw [records.eq_def]
      exact writes_pure _
  | .table entries :: rest, hheld => by
      rw [Value.itemReferences, List.forall_mem_append] at hheld
      rw [records_table, Value.recordIntegers]
      exact (writes_fields (writes_eachField entries hheld.1)).bind fun _ =>
        (writes_records rest hheld.2).followed fun _ => writes_pure _
  | .string _ :: rest, hheld | .integer _ :: rest, hheld | .float _ :: rest, hheld
  | .boolean _ :: rest, hheld | .moment _ :: rest, hheld | .array _ :: rest, hheld
  | .absent :: rest, hheld => by
      rw [Value.itemReferences, List.forall_mem_append] at hheld
      rw [records.eq_def]
      exact writes_records rest hheld.2

end

end Build

namespace Emitter

open Build (Writes)

variable {σ : Type} [FileSystem σ] {loader : Loader} {store : σ}

theorem writes_assignment (key : String) {v : Value}
    (hheld : ∀ reference ∈ v.references, loader.Holds store reference) :
    Writes loader v.integers (assignment store key v) := by
  unfold assignment
  split
  · exact Build.writes_pure _
  · exact (Build.writes_field key v hheld).followed fun _ => Build.writes_pure _

theorem writes_accessor (e : Emitter) (scope : Scope) (key : String) {v : Value}
    (hheld : ∀ reference ∈ v.references, loader.Holds store reference) :
    Writes loader v.accessorIntegers (e.accessor store scope key v) := by
  rw [accessor_eq]
  refine Writes.followed ?_ fun fallback =>
    (Build.writes_requireAll _).followed fun _ => Build.writes_pure _
  unfold Value.accessorIntegers fallback
  split
  · exact Build.writes_pure none
  · exact (Build.writes_field key v hheld).map some

theorem writes_methods (e : Emitter) {s : Schema}
    (hheld : ∀ reference ∈ Value.entryReferences s.fields, loader.Holds store reference) :
    Writes loader (if s.inArray then [] else s.sortedFields.flatMap (·.2.accessorIntegers))
      (e.methods store s) := by
  unfold methods
  split
  · exact Build.writes_pure _
  · refine Build.writes_mapM _ fun f hf => e.writes_accessor _ _ fun reference hreference => ?_
    refine hheld reference ((Value.entryReferences_sortByKey_perm s.fields).mem_iff.1 ?_)
    exact Value.mem_entryReferences hf hreference

def writtenIntegers (mode : Mode) (tree : Table) (catalog : Catalog) : List Int :=
  match mode with
  | .static => tree.flatMap (·.2.integers)
  | .getter =>
    (catalog.sorted.flatMap fun s =>
        if s.inArray then [] else s.sortedFields.flatMap (·.2.accessorIntegers)) ++
      (tree.filter (!·.2.isTable)).flatMap (·.2.accessorIntegers)

theorem writes_file (e : Emitter) (tree : Table) (ds : List Go.Declaration) :
    Writes loader [] (e.file tree ds) := by
  have hfile (packages : List Go.Package) : Writes loader []
      (pure ⟨e.package, Go.Package.all.filter (packages.contains ·), ds⟩ : Build Go.SourceFile) :=
    Build.writes_pure _
  unfold file
  split
  · exact (Build.writes_require _).followed fun _ => Build.writes_get.followed fun _ => hfile _
  · exact Build.writes_get.followed fun _ => hfile _

section Values

variable {tree : Table}
  (hheld : ∀ reference ∈ Value.entryReferences tree, loader.Holds store reference)

include hheld

theorem writes_staticValues :
    Writes loader (tree.flatMap (·.2.integers)) (staticValues store tree) := by
  have hsorted : Writes loader ((Table.sortByKey tree).flatMap (·.2.integers))
      (staticValues store tree) := by
    refine (Build.writes_mapM _ fun entry hentry => writes_assignment entry.1 ?_).followed
      fun _ => Build.writes_pure _
    exact fun reference hreference =>
      hheld reference (Value.mem_entryReferences (Table.mem_sortByKey.1 hentry) hreference)
  exact hsorted.of_mem_iff (by simp)

theorem writes_getterValues (e : Emitter) :
    Writes loader ((tree.filter (!·.2.isTable)).flatMap (·.2.accessorIntegers))
      (e.getterValues store tree) := by
  have hsorted : Writes loader
      (((Table.sortByKey tree).filter (!·.2.isTable)).flatMap (·.2.accessorIntegers))
      (e.getterValues store tree) := by
    refine (Build.writes_mapM _ fun entry hentry => e.writes_accessor _ _ ?_).followed
      fun _ => Build.writes_pure _
    have hmem := Table.mem_sortByKey.1 (List.mem_filter.1 hentry).1
    exact fun reference hreference =>
      hheld reference (Value.mem_entryReferences hmem hreference)
  exact hsorted.of_mem_iff (by simp)

theorem writes_emit (e : Emitter) :
    Writes loader (writtenIntegers e.mode tree (Catalog.collect tree))
      (e.emit store tree (Catalog.collect tree)) := by
  rw [emit_eq]
  unfold methodsOfAll values writtenIntegers
  cases e.mode with
  | static =>
      exact (Build.writes_pure _).bind fun methods =>
        (writes_staticValues hheld).followed fun values => e.writes_file _ _
  | getter =>
      refine Build.Writes.bind (Build.writes_mapM _ fun s hs => e.writes_methods ?_) fun methods =>
        (writes_getterValues hheld e).followed fun values => e.writes_file _ _
      have hholds := Catalog.mem_collect (Catalog.mem_sorted.1 hs)
      exact fun reference hreference => hheld reference (hholds.mem_entryReferences hreference)

end Values

end Emitter

end TypedConfig
