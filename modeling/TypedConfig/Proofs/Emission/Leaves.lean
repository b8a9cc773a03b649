import TypedConfig.Proofs.Emission.KeyOrder
import TypedConfig.Proofs.Emission.Typing
import TypedConfig.Proofs.Value.Embedded
import TypedConfig.Toml.Document
import Mathlib.Data.List.Forall2

namespace TypedConfig

open Go (Declaration Literal SourceFile)

namespace Value

mutual

def leaves : Value → List Value
  | .array items => itemLeaves items
  | .table entries => entryLeaves entries
  | .moment _ | .absent => []
  | v => [v]

def itemLeaves : List Value → List Value
  | [] => []
  | v :: rest => v.leaves ++ itemLeaves rest

def entryLeaves : List (String × Value) → List Value
  | [] => []
  | (_, v) :: rest => v.leaves ++ entryLeaves rest

end

def omitted (v : Value) : List (Value × Bool) :=
  v.leaves.map fun leaf => (leaf, false)

mutual

/-- The leaves of a value that needs no record type, and whether they are written. Tables among the
elements of an array are left out, and so are arrays of tables. -/
def plainMarks : Value → List (Value × Bool)
  | .array items =>
    if isTableArray (.array items) then omitted (.array items) else itemMarks items
  | .table entries => omitted (.table entries)
  | .moment _ | .absent => []
  | v => [(v, true)]

def itemMarks : List Value → List (Value × Bool)
  | [] => []
  | v :: rest => v.plainMarks ++ itemMarks rest

end

mutual

def marks : Value → List (Value × Bool)
  | .table entries => entryMarks entries
  | .array items =>
    if isTableArray (.array items) then recordMarks items else plainMarks (.array items)
  | v => plainMarks v

def entryMarks : List (String × Value) → List (Value × Bool)
  | [] => []
  | (_, v) :: rest => v.marks ++ entryMarks rest

def recordMarks : List Value → List (Value × Bool)
  | [] => []
  | .table entries :: rest => entryMarks entries ++ recordMarks rest
  | v :: rest => v.omitted ++ recordMarks rest

end

def written (marked : List (Value × Bool)) : List Value :=
  (marked.filter Prod.snd).map Prod.fst

@[simp]
theorem written_append (marked others : List (Value × Bool)) :
    written (marked ++ others) = written marked ++ written others := by
  rw [written, List.filter_append, List.map_append]
  rfl

@[simp]
theorem written_omitted (v : Value) : written v.omitted = [] := by
  simp [written, omitted]

theorem map_fst_omitted (v : Value) : v.omitted.map Prod.fst = v.leaves := by
  rw [omitted, List.map_map]
  exact List.map_id _

mutual

theorem map_fst_plainMarks : ∀ v : Value, v.plainMarks.map Prod.fst = v.leaves
  | .array items => by
      rw [plainMarks]
      split
      · exact map_fst_omitted _
      · exact map_fst_itemMarks items
  | .table entries => map_fst_omitted _
  | .string _ | .integer _ | .float _ | .boolean _ | .moment _ | .absent => rfl

theorem map_fst_itemMarks : ∀ items : List Value, (itemMarks items).map Prod.fst = itemLeaves items
  | [] => rfl
  | v :: rest => by
      rw [itemMarks, itemLeaves, List.map_append, map_fst_plainMarks v, map_fst_itemMarks rest]

end

mutual

/-- Every leaf has one mark. -/
theorem map_fst_marks : ∀ v : Value, v.marks.map Prod.fst = v.leaves
  | .table entries => map_fst_entryMarks entries
  | .array items => by
      rw [marks]
      split
      · exact map_fst_recordMarks items
      · exact map_fst_plainMarks _
  | .string _ | .integer _ | .float _ | .boolean _ | .moment _ | .absent => rfl

theorem map_fst_entryMarks :
    ∀ entries : List (String × Value), (entryMarks entries).map Prod.fst = entryLeaves entries
  | [] => rfl
  | (_, v) :: rest => by
      rw [entryMarks, entryLeaves, List.map_append, map_fst_marks v, map_fst_entryMarks rest]

theorem map_fst_recordMarks :
    ∀ items : List Value, (recordMarks items).map Prod.fst = itemLeaves items
  | [] => rfl
  | .table entries :: rest => by
      rw [recordMarks, itemLeaves, List.map_append, map_fst_entryMarks entries,
        map_fst_recordMarks rest]
      rfl
  | .string _ :: rest | .integer _ :: rest | .float _ :: rest | .boolean _ :: rest
  | .moment _ :: rest | .array _ :: rest | .absent :: rest => by
      rw [recordMarks, itemLeaves, List.map_append, map_fst_omitted, map_fst_recordMarks rest]
      rintro _ ⟨⟩

end

theorem written_entryMarks (entries : Table) :
    written (entryMarks entries) = entries.flatMap fun entry => written entry.2.marks := by
  induction entries with
  | nil => rfl
  | cons entry entries ih => rw [entryMarks, written_append, ih, List.flatMap_cons]

theorem entryLeaves_eq_flatMap (entries : Table) :
    entryLeaves entries = entries.flatMap (·.2.leaves) := by
  induction entries with
  | nil => rfl
  | cons entry entries ih => rw [entryLeaves, ih, List.flatMap_cons]

theorem itemLeaves_eq_flatMap (items : List Value) : itemLeaves items = items.flatMap leaves := by
  induction items with
  | nil => rfl
  | cons v items ih => rw [itemLeaves, ih, List.flatMap_cons]

theorem entryLeaves_sortByKey_perm (entries : Table) :
    (entryLeaves (Table.sortByKey entries)).Perm (entryLeaves entries) := by
  rw [entryLeaves_eq_flatMap, entryLeaves_eq_flatMap]
  exact (Table.sortByKey_perm entries).flatMap_right _

mutual

/-- Putting keys in order loses no leaf. -/
theorem leaves_sorted_perm : ∀ v : Value, v.sorted.leaves.Perm v.leaves
  | .array items => itemLeaves_sorted_perm items
  | .table entries =>
      (entryLeaves_sortByKey_perm _).trans (entryLeaves_sorted_perm entries)
  | .string _ | .integer _ | .float _ | .boolean _ | .moment _ | .absent => .refl _

theorem itemLeaves_sorted_perm :
    ∀ items : List Value, (itemLeaves (sortedItems items)).Perm (itemLeaves items)
  | [] => .refl _
  | v :: rest => (leaves_sorted_perm v).append (itemLeaves_sorted_perm rest)

theorem entryLeaves_sorted_perm : ∀ entries : List (String × Value),
    (entryLeaves (sortedEntries entries)).Perm (entryLeaves entries)
  | [] => .refl _
  | (_, v) :: rest => (leaves_sorted_perm v).append (entryLeaves_sorted_perm rest)

end

end Value

namespace Go

mutual

def Literal.leaves : Literal → List Literal
  | .nil => []
  | .slice _ items | .records _ items => literalLeaves items
  | .record _ fields => fieldLeaves fields
  | l => [l]

def literalLeaves : List Literal → List Literal
  | [] => []
  | l :: rest => l.leaves ++ literalLeaves rest

def fieldLeaves : List (String × Literal) → List Literal
  | [] => []
  | (_, l) :: rest => l.leaves ++ fieldLeaves rest

end

theorem fieldLeaves_eq_flatMap (fields : List (String × Literal)) :
    fieldLeaves fields = fields.flatMap (·.2.leaves) := by
  induction fields with
  | nil => rfl
  | cons field fields ih => rw [fieldLeaves, ih, List.flatMap_cons]

def Literal.blob? : Literal → Option (List UInt8)
  | .bytes data => some data
  | _ => none

def Variable.leaves (v : Variable) : List Literal :=
  (v.value.map Literal.leaves).getD []

def Declaration.leaves : Declaration → List Literal
  | .group members => members.flatMap Variable.leaves
  | .record .. | .placeholder _ | .accessor _ => []

def SourceFile.leaves (f : SourceFile) : List Literal :=
  f.declarations.flatMap Declaration.leaves

end Go

namespace Build

variable {σ : Type} [FileSystem σ] {store : σ} {before between after : Progress} {l : Literal}

inductive Spells (store : σ) (loader : Loader) : Value → Literal → Prop
  | integer (n : Int) : Spells store loader (.integer n) (.integer n)
  | float (x : Binary64) : Spells store loader (.float x) (.float x)
  | boolean (b : Bool) : Spells store loader (.boolean b) (.boolean b)
  | string (text : String) : Spells store loader (.string text) (.string text)
  | duration {text : String} {nanoseconds : Int}
      (meaning : Value.meaning text = .duration nanoseconds) :
      Spells store loader (.string text) (.duration nanoseconds)
  | bytes {text : String} {path : Path} {content : ByteArray}
      (named : Reference.path loader.base text = .ok path)
      (loaded : loader.cache.lookup (FileSystem.absolute store path) = some content) :
      Spells store loader (.string text) (.bytes content.toList)

def Embeds (store : σ) (loader : Loader) (reference : String) (data : List UInt8) : Prop :=
  ∃ content, loader.Supplies store reference content ∧ content.toList = data

structure Carries (store : σ) (before after : Progress) (references : List String)
    (blobs : List (List UInt8)) : Prop where
  loader : before.loader.Extends after.loader
  embedded : List.Forall₂ (Embeds store after.loader) references blobs

/-- A part of an emission writes literals for these leaves, among them the bytes for these
references. -/
structure Transcribes (store : σ) (before after : Progress) (leaves : List Value)
    (references : List String) (literals : List Literal) : Prop
    extends Carries store before after references (literals.filterMap Literal.blob?) where
  spelled : List.Forall₂ (Spells store after.loader) leaves literals

theorem Spells.mono {loader later : Loader} {v : Value} (h : Spells store loader v l)
    (hext : loader.Extends later) : Spells store later v l := by
  cases h with
  | integer n => exact .integer n
  | float x => exact .float x
  | boolean b => exact .boolean b
  | string text => exact .string text
  | duration meaning => exact .duration meaning
  | bytes named loaded => exact .bytes (by rw [hext.base, named]) (hext.lookup loaded)

theorem Embeds.mono {loader later : Loader} {reference : String} {data : List UInt8}
    (h : Embeds store loader reference data) (hext : loader.Extends later) :
    Embeds store later reference data := by
  obtain ⟨content, hsupplies, hdata⟩ := h
  exact ⟨content, hsupplies.mono hext, hdata⟩

/-- A part that writes no bytes. -/
theorem carries_nothing (h : after.loader = before.loader) : Carries store before after [] [] :=
  ⟨h ▸ .refl _, .nil⟩

theorem Carries.append {texts others : List String} {blobs more : List (List UInt8)}
    (h : Carries store before between texts blobs) (h' : Carries store between after others more) :
    Carries store before after (texts ++ others) (blobs ++ more) where
  loader := h.loader.trans h'.loader
  embedded :=
    List.rel_append (h.embedded.imp fun _ _ hembeds => hembeds.mono h'.loader) h'.embedded

theorem Transcribes.nil : Transcribes store before before [] [] [] :=
  ⟨carries_nothing rfl, .nil⟩

/-- A literal that holds no bytes. -/
theorem Transcribes.single {v : Value} (h : Spells store after.loader v l)
    (hloader : after.loader = before.loader) (hblob : l.blob? = none) :
    Transcribes store before after [v] [] [l] where
  toCarries := by
    rw [List.filterMap_cons_none hblob]
    exact carries_nothing hloader
  spelled := .cons h .nil

theorem Transcribes.append {vs ws : List Value} {texts others : List String} {ls ks : List Literal}
    (h : Transcribes store before between vs texts ls)
    (h' : Transcribes store between after ws others ks) :
    Transcribes store before after (vs ++ ws) (texts ++ others) (ls ++ ks) where
  toCarries := by
    rw [List.filterMap_append]
    exact h.toCarries.append h'.toCarries
  spelled := List.rel_append (h.spelled.imp fun _ _ hspells => hspells.mono h'.loader) h'.spelled

theorem kept_of_yields_load {reference : String} {content : ByteArray}
    (h : Yields (load store reference) before content after) :
    outcome (Loader.load store reference) before.loader = (.ok content, after.loader) := by
  simp only [load, yields_bind, yields_get] at h
  obtain ⟨_, _, ⟨rfl, rfl⟩, h⟩ := h
  split at h
  next result loader hload =>
    simp only [yields_bind, yields_set, yields_ofExcept] at h
    obtain ⟨_, _, rfl, hresult, rfl⟩ := h
    cases result with
    | error e => cases hresult
    | ok a =>
        cases hresult
        exact hload

theorem transcribes_string {text : String} (h : Yields (string store text) before l after) :
    Transcribes store before after [.string text]
      (Value.embedded (Value.string text).plainEmbeddings) l.leaves := by
  rw [Value.embedded_string]
  unfold string at h
  cases hm : Value.meaning text with
  | reference =>
      simp only [hm, yields_bind, yields_pure] at h
      obtain ⟨content, _, hload, rfl, rfl⟩ := h
      obtain ⟨hext, path, hnamed, hloaded⟩ := Loader.kept_of_load (kept_of_yields_load hload)
      rw [if_pos (Value.meaning_eq_reference_iff.1 hm)]
      exact ⟨⟨hext, .cons ⟨content, ⟨path, hnamed, hloaded⟩, rfl⟩ .nil⟩,
        .cons (.bytes hnamed hloaded) .nil⟩
  | duration n =>
      simp only [hm, yields_bind, yields_pure, yields_require] at h
      obtain ⟨_, _, rfl, rfl, rfl⟩ := h
      rw [if_neg (by simp [← Value.meaning_eq_reference_iff, hm])]
      exact .single (.duration hm) rfl rfl
  | plain =>
      simp only [hm, yields_pure] at h
      obtain ⟨rfl, rfl⟩ := h
      rw [if_neg (by simp [← Value.meaning_eq_reference_iff, hm])]
      exact .single (.string text) rfl rfl

theorem transcribes_float {x : Binary64} (h : Yields (float x) before l after) :
    Transcribes store before after [.float x] [] l.leaves := by
  unfold float at h
  cases x with
  | finite x =>
      obtain ⟨rfl, rfl⟩ := (yields_pure _ _).1 h
      exact .single (.float _) rfl rfl
  | nan | infinite =>
      simp only [yields_bind, yields_pure, yields_require] at h
      obtain ⟨_, _, rfl, rfl, rfl⟩ := h
      exact .single (.float _) rfl rfl

theorem transcribes_element {keeps : Bool} {v : Value}
    (hv : ∀ {before l after}, Yields (literal store v) before l after →
      Transcribes store before after (Value.written v.plainMarks)
        (Value.embedded v.plainEmbeddings) l.leaves)
    (h : Yields (element store keeps v) before l after) :
    Transcribes store before after (Value.written v.plainMarks)
      (Value.embedded (v.elementEmbeddings keeps)) l.leaves := by
  rw [element.eq_def] at h
  split at h
  · next text =>
    rw [Value.embedded_elementEmbeddings_string]
    split at h
    · next hkeeps =>
      obtain ⟨rfl, rfl⟩ := (yields_pure _ _).1 h
      rw [if_pos hkeeps]
      exact .single (.string text) rfl rfl
    · next hkeeps =>
      rw [if_neg hkeeps]
      exact transcribes_string h
  · next hstring =>
    rw [Value.elementEmbeddings_of_not_isString (Value.isString_eq_false hstring)]
    exact hv h

mutual

theorem transcribes_literal : ∀ (v : Value) {before l after},
    Yields (literal store v) before l after →
      Transcribes store before after (Value.written v.plainMarks)
        (Value.embedded v.plainEmbeddings) l.leaves
  | .string text, before, l, after, h => by
      rw [literal.eq_def] at h
      exact transcribes_string h
  | .integer n, before, l, after, h => by
      rw [literal.eq_def] at h
      obtain ⟨rfl, rfl⟩ := yields_integer h
      exact .single (.integer n) rfl rfl
  | .float x, before, l, after, h => by
      rw [literal.eq_def] at h
      exact transcribes_float h
  | .boolean b, before, l, after, h => by
      rw [literal.eq_def] at h
      obtain ⟨rfl, rfl⟩ := (yields_pure _ _).1 h
      exact .single (.boolean b) rfl rfl
  | .moment _, before, l, after, h | .array [], before, l, after, h
  | .absent, before, l, after, h => by
      rw [literal.eq_def] at h
      obtain ⟨rfl, rfl⟩ := (yields_pure _ _).1 h
      exact .nil
  | .table entries, before, l, after, h => by
      rw [literal.eq_def] at h
      obtain ⟨rfl, rfl⟩ := (yields_pure _ _).1 h
      rw [Value.plainMarks, Value.written_omitted, Value.plainEmbeddings, Value.embedded_bypassed]
      exact .nil
  | .array (first :: rest), before, l, after, h => by
      rw [literal_cons] at h
      rw [Value.plainMarks, Value.plainEmbeddings, Value.isTableArray_cons]
      split at h
      · next htable =>
        obtain ⟨rfl, rfl⟩ := (yields_pure _ _).1 h
        rw [if_pos htable, if_pos htable, Value.written_omitted, Value.embedded_bypassed]
        exact .nil
      · next htable =>
        -- The first element gives the type, and the others are written as it is.
        simp only [yields_bind, yields_pure] at h
        obtain ⟨l, _, hl, ls, _, hls, rfl, rfl⟩ := h
        rw [if_neg htable, if_neg htable, Value.itemMarks, Value.written_append,
          Value.keepsStrings_cons, Value.itemEmbeddings_cons, Value.embedded_append]
        exact (transcribes_element (transcribes_literal first) hl).append
          (transcribes_elements rest hls)

theorem transcribes_elements {keeps : Bool} : ∀ (vs : List Value) {before ls after},
    Yields (elements store keeps vs) before ls after →
      Transcribes store before after (Value.written (Value.itemMarks vs))
        (Value.embedded (Value.itemEmbeddings keeps vs)) (Go.literalLeaves ls)
  | [], before, ls, after, h => by
      rw [elements] at h
      obtain ⟨rfl, rfl⟩ := (yields_pure _ _).1 h
      exact .nil
  | v :: rest, before, ls, after, h => by
      rw [elements] at h
      simp only [yields_bind, yields_pure] at h
      obtain ⟨l, _, hl, ls, _, hls, rfl, rfl⟩ := h
      rw [Value.itemMarks, Value.written_append, Value.itemEmbeddings_cons, Value.embedded_append]
      exact (transcribes_element (transcribes_literal v) hl).append (transcribes_elements rest hls)

end

theorem transcribes_mapM {α β : Type} {f : α → Build β} (leaves : α → List Value)
    (references : α → List String) (literals : β → List Literal) {xs : List α} {ys : List β}
    (hf : ∀ x ∈ xs, ∀ {before y after}, Yields (f x) before y after →
      Transcribes store before after (leaves x) (references x) (literals y))
    (h : Yields (xs.mapM f) before ys after) :
    Transcribes store before after (xs.flatMap leaves) (xs.flatMap references)
      (ys.flatMap literals) := by
  induction xs generalizing before after ys with
  | nil =>
      rw [List.mapM_nil] at h
      obtain ⟨rfl, rfl⟩ := (yields_pure _ _).1 h
      exact .nil
  | cons x xs ih =>
      obtain ⟨hx, hxs⟩ := List.forall_mem_cons.1 hf
      rw [List.mapM_cons] at h
      simp only [yields_bind, yields_pure] at h
      obtain ⟨y, _, hy, ys, _, hys, rfl, rfl⟩ := h
      rw [List.flatMap_cons, List.flatMap_cons, List.flatMap_cons]
      exact (hx hy).append (ih hxs hys)

/-- The literals of a record are those of its fields, which stand in the order of their keys. -/
theorem transcribes_fields {scope : Scope} {entries : Table}
    (hentries : ∀ e ∈ entries, ∀ {before l after},
      Yields (field store scope e.1 e.2) before l after →
        Transcribes store before after (Value.written e.2.sorted.marks)
          (Value.embedded e.2.sorted.embeddings) l.leaves)
    {fs : List (String × Literal)} (h : Yields (fields store scope entries) before fs after) :
    Transcribes store before after (Value.written (Value.entryMarks (Table.sorted entries)))
      (Value.embedded (Value.entryEmbeddings (Table.sorted entries))) (Go.fieldLeaves fs) := by
  rw [fields_eq_mapM] at h
  rw [Table.sorted_eq_map, Value.written_entryMarks, Value.embedded_entryEmbeddings,
    List.flatMap_map, List.flatMap_map, Go.fieldLeaves_eq_flatMap]
  refine transcribes_mapM _ _ _ (fun e he before named after hnamed => ?_) h
  simp only [namedField, yields_bind, yields_pure] at hnamed
  obtain ⟨l, _, hl, rfl, rfl⟩ := hnamed
  exact hentries e (Table.mem_sortByKey.1 he) hl

mutual

theorem transcribes_field {scope : Scope} (key : String) : ∀ (v : Value) {before l after},
    Yields (field store scope key v) before l after →
      Transcribes store before after (Value.written v.sorted.marks)
        (Value.embedded v.sorted.embeddings) l.leaves
  | .table entries, before, l, after, h => by
      rw [field_table] at h
      simp only [yields_bind, yields_pure] at h
      obtain ⟨fs, _, hfs, rfl, rfl⟩ := h
      exact transcribes_fields (transcribes_eachField entries) hfs
  | .array items, before, l, after, h => by
      rw [field_array] at h
      rw [Value.sorted, Value.marks, Value.embeddings, Value.isTableArray_sortedItems]
      split at h
      · next htables =>
        simp only [yields_bind, yields_pure] at h
        obtain ⟨ls, _, hls, rfl, rfl⟩ := h
        rw [if_pos htables, if_pos htables]
        exact transcribes_records items hls
      · next htables =>
        rw [if_neg htables, if_neg htables]
        rw [← literal_sorted] at h
        exact transcribes_literal _ h
  | .string _, before, l, after, h | .integer _, before, l, after, h
  | .float _, before, l, after, h | .boolean _, before, l, after, h
  | .moment _, before, l, after, h | .absent, before, l, after, h => by
      rw [field.eq_def] at h
      exact transcribes_literal _ h

theorem transcribes_eachField {scope : Scope} : ∀ entries : List (String × Value), ∀ e ∈ entries,
    ∀ {before l after}, Yields (field store scope e.1 e.2) before l after →
      Transcribes store before after (Value.written e.2.sorted.marks)
        (Value.embedded e.2.sorted.embeddings) l.leaves
  | [] => List.forall_mem_nil _
  | (key, v) :: rest =>
      List.forall_mem_cons.2 ⟨transcribes_field key v, transcribes_eachField rest⟩

theorem transcribes_records {scope : Scope} : ∀ (items : List Value) {before ls after},
    Yields (records store scope items) before ls after →
      Transcribes store before after (Value.written (Value.recordMarks (Value.sortedItems items)))
        (Value.embedded (Value.recordEmbeddings (Value.sortedItems items))) (Go.literalLeaves ls)
  | [], before, ls, after, h => by
      rw [records.eq_def] at h
      obtain ⟨rfl, rfl⟩ := (yields_pure _ _).1 h
      exact .nil
  | .table entries :: rest, before, ls, after, h => by
      rw [records_table] at h
      simp only [yields_bind, yields_pure] at h
      obtain ⟨fs, _, hfs, ls, _, hls, rfl, rfl⟩ := h
      rw [Value.sortedItems, Value.sorted, Value.recordMarks, Value.written_append,
        Value.recordEmbeddings, Value.embedded_append]
      exact (transcribes_fields (transcribes_eachField entries) hfs).append
        (transcribes_records rest hls)
  | .string _ :: rest, before, ls, after, h | .integer _ :: rest, before, ls, after, h
  | .float _ :: rest, before, ls, after, h | .boolean _ :: rest, before, ls, after, h
  | .moment _ :: rest, before, ls, after, h | .array _ :: rest, before, ls, after, h
  | .absent :: rest, before, ls, after, h => by
      rw [records.eq_def] at h
      simp only [Value.sortedItems, Value.sorted]
      rw [Value.recordMarks, Value.written_append, Value.written_omitted, List.nil_append,
        Value.recordEmbeddings, Value.embedded_append, Value.embedded_bypassed, List.nil_append]
      · exact transcribes_records rest h
      · rintro _ ⟨⟩
      · rintro _ ⟨⟩

end

end Build

namespace Emitter

open Build (Yields Transcribes Spells)

variable {σ : Type} [FileSystem σ] {store : σ} {before after : Progress} {catalog : Catalog}

theorem transcribes_assignment {key : String} {v : Value} {member : Go.Variable}
    (h : Yields (assignment store key v) before member after) :
    Transcribes store before after (Value.written v.sorted.marks)
      (Value.embedded v.sorted.embeddings) member.leaves := by
  unfold assignment at h
  split at h
  · obtain ⟨rfl, rfl⟩ := (Build.yields_pure _ _).1 h
    exact .nil
  · simp only [Build.yields_bind, Build.yields_pure] at h
    obtain ⟨l, _, hl, rfl, rfl⟩ := h
    exact Build.transcribes_field key v hl

theorem transcribes_assignments {tree : Table} {members : List Go.Variable}
    (h : Yields ((Table.sortByKey tree).mapM fun entry => assignment store entry.1 entry.2) before
      members after) :
    Transcribes store before after (Value.written (Value.entryMarks tree.sorted))
      (Value.embedded (Value.entryEmbeddings tree.sorted))
      (members.flatMap Go.Variable.leaves) := by
  rw [Table.sorted_eq_map, Value.written_entryMarks, Value.embedded_entryEmbeddings,
    List.flatMap_map, List.flatMap_map]
  exact Build.transcribes_mapM _ _ _ (fun _ _ _ _ _ hmember => transcribes_assignment hmember) h

theorem leaves_typeDeclarations (schemas : List Schema) :
    (schemas.map (typeDeclaration .static)).flatMap Declaration.leaves = [] := by
  rw [List.flatMap_map]
  exact List.flatMap_eq_nil_iff.2 fun _ _ => rfl

/-- Of an emitted configuration every leaf is marked, each once and in the order of the keys, and
the literals in the block of variables are one for one those of the leaves that are marked as
written. -/
theorem leaves_written {package variablePrefix : String} {tree : Table} {f : SourceFile}
    (h : Yields (emit ⟨.static, package, variablePrefix⟩ store tree catalog) before f after) :
    (Value.entryLeaves tree.sorted).Perm (Value.entryLeaves tree) ∧
      (Value.entryMarks tree.sorted).map Prod.fst = Value.entryLeaves tree.sorted ∧
      List.Forall₂ (Spells store after.loader) (Value.written (Value.entryMarks tree.sorted))
        f.leaves := by
  refine ⟨?_, Value.map_fst_entryMarks _, ?_⟩
  · exact (Value.entryLeaves_sortByKey_perm _).trans (Value.entryLeaves_sorted_perm tree)
  · unfold emit at h
    obtain ⟨methods, between, hmethods, h⟩ := (Build.yields_bind _ _ _).1 h
    obtain ⟨rfl, rfl⟩ := (Build.yields_pure _ _).1 hmethods
    obtain ⟨values, last, hvalues, h⟩ := (Build.yields_bind _ _ _).1 h
    simp only [staticValues, Build.yields_bind, Build.yields_pure] at hvalues
    obtain ⟨members, _, hmembers, rfl, rfl⟩ := hvalues
    have hdeclarations := (mem_imports (e := ⟨.static, package, variablePrefix⟩) h).1
    have hloader := loader_of_header (e := ⟨.static, package, variablePrefix⟩) h
    have hleaves : f.leaves = members.flatMap Go.Variable.leaves := by
      rw [SourceFile.leaves, hdeclarations, List.flatMap_append, List.flatMap_append,
        leaves_typeDeclarations]
      simp [Declaration.leaves]
    rw [hleaves, hloader]
    exact (transcribes_assignments hmembers).spelled

def mixed : Table :=
  [("x", .array [.table [("a", .boolean true)], .string "s"]),
    ("y", .array [.boolean false, .table [("b", .boolean true)]])]

def isMixed : Except Toml.DecodeError Table → Bool
  | .ok [("x", .array [.table [("a", .boolean true)], .string "s"]),
      ("y", .array [.boolean false, .table [("b", .boolean true)]])] => true
  | _ => false

theorem eq_of_isMixed {result : Except Toml.DecodeError Table} (h : isMixed result) :
    result = .ok mixed := by
  unfold isMixed at h
  split at h
  · rfl
  · cases h

theorem decode_mixed :
    Toml.decode "x = [{a = true}, \"s\"]\ny = [false, {b = true}]" = .ok mixed :=
  eq_of_isMixed (by decide +kernel)

def mixedFile : SourceFile :=
  ⟨"config", [], [.record "XItem" [⟨"A", .bool⟩], .group [
    ⟨"X", none, some (.records "XItem" [.record none [("A", .boolean true)]])⟩,
    ⟨"Y", some (.slice .bool), some (.slice .bool [.boolean false, .nil])⟩]]⟩

theorem yields_mixed (store : FileStore) (loader : Loader) :
    Yields (emit ⟨.static, "config", "CONFIG"⟩ store mixed (Catalog.collect mixed)) ⟨loader, []⟩
      mixedFile ⟨loader, []⟩ := by
  have hboolean (b : Bool) : Build.literal store (.boolean b) = pure (.boolean b) :=
    Build.literal.eq_def store (.boolean b)
  have htable (entries : Table) : Build.literal store (.table entries) = pure .nil :=
    Build.literal.eq_def store (.table entries)
  have hfields (scope : Scope) :
      Build.fields store scope [("a", .boolean true)] = pure [("A", .boolean true)] := by
    have hsorted : Table.sortByKey [("a", Value.boolean true)] = [("a", .boolean true)] := rfl
    simp only [Build.fields_eq_mapM, hsorted, List.mapM_cons, List.mapM_nil, Build.namedField,
      Build.field_boolean]
    rfl
  have hx : Build.field store .root "x"
      (.array [.table [("a", .boolean true)], .string "s"]) =
        pure (.records "XItem" [.record none [("A", .boolean true)]]) := by
    have htables : Value.isTableArray (.array [.table [("a", .boolean true)], .string "s"]) := rfl
    rw [Build.field_array, if_pos htables, Build.records_table, hfields, Build.records,
      Build.records]
    · rfl
    · simp
  have hy : Build.field store .root "y"
      (.array [.boolean false, .table [("b", .boolean true)]]) =
        pure (.slice .bool [.boolean false, .nil]) := by
    rw [Build.field_array]
    simp only [Value.isTableArray, Build.literal_cons, Build.element, Build.elements, hboolean,
      htable]
    rfl
  have hsorted : Table.sortByKey mixed =
      [("x", .array [.table [("a", .boolean true)], .string "s"]),
        ("y", .array [.boolean false, .table [("b", .boolean true)]])] := rfl
  have hvalues : staticValues store mixed = pure [.group [
      ⟨"X", none, some (.records "XItem" [.record none [("A", .boolean true)]])⟩,
      ⟨"Y", some (.slice .bool), some (.slice .bool [.boolean false, .nil])⟩]] := by
    simp only [staticValues, hsorted, List.mapM_cons, List.mapM_nil, assignment, hx, hy]
    rfl
  rw [emit]
  simp only [hvalues]
  rfl

/-- One leaf of each array is written, and one is not. -/
theorem leaves_written_mixed :
    Yields (emit ⟨.static, "config", "CONFIG"⟩ (⟨[], [], [], 0⟩ : FileStore) mixed
        (Catalog.collect mixed)) ⟨⟨none, 0, []⟩, []⟩ mixedFile ⟨⟨none, 0, []⟩, []⟩ ∧
      Value.entryMarks mixed.sorted = [(.boolean true, true), (.string "s", false),
        (.boolean false, true), (.boolean true, false)] ∧
      List.Forall₂ (Spells (⟨[], [], [], 0⟩ : FileStore) ⟨none, 0, []⟩)
        [.boolean true, .boolean false] mixedFile.leaves :=
  have h := yields_mixed (⟨[], [], [], 0⟩ : FileStore) ⟨none, 0, []⟩
  ⟨h, rfl, (leaves_written h).2.2⟩

/-- What a configuration file says is not always written in full: of four leaves two are lost. -/
theorem not_all_leaves_written : ¬ ∀ (text : String) (tree : Table) (store : FileStore)
    (loader : Loader) (f : SourceFile) (after : Progress), Toml.decode text = .ok tree →
    Yields (emit ⟨.static, "config", "CONFIG"⟩ store tree (Catalog.collect tree)) ⟨loader, []⟩
      f after →
    List.Forall₂ (Spells store after.loader) (Value.entryLeaves tree.sorted) f.leaves := by
  intro h
  have hwritten := h _ _ _ _ _ _ decode_mixed
    (yields_mixed (⟨[], [], [], 0⟩ : FileStore) ⟨none, 0, []⟩)
  have hlength : (Value.entryLeaves mixed.sorted).length = mixedFile.leaves.length :=
    hwritten.length_eq
  have hleaves : (Value.entryLeaves mixed.sorted).length = 4 := rfl
  have hliterals : mixedFile.leaves.length = 2 := rfl
  omega

end Emitter
end TypedConfig
