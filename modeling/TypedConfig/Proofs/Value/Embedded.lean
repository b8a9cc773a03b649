import TypedConfig.Proofs.Files.Loading
import TypedConfig.Proofs.Value.Kind

namespace TypedConfig.Value

def bypassed (v : Value) : List (String × Bool) :=
  v.references.map fun reference => (reference, false)

def keepsStrings (items : List Value) : Bool :=
  items.head?.any (·.kind == .string)

mutual

def plainEmbeddings : Value → List (String × Bool)
  | .string text => if TypedConfig.isReference text then [(text, true)] else []
  | .array items =>
    if isTableArray (.array items) then bypassed (.array items)
    else itemEmbeddings (keepsStrings items) items
  | .table entries => bypassed (.table entries)
  | .integer _ | .float _ | .boolean _ | .moment _ | .absent => []

def itemEmbeddings (keeps : Bool) : List Value → List (String × Bool)
  | [] => []
  | v :: rest =>
    (if keeps && v.isString then v.bypassed else v.plainEmbeddings) ++ itemEmbeddings keeps rest

end

def elementEmbeddings (keeps : Bool) (v : Value) : List (String × Bool) :=
  if keeps && v.isString then v.bypassed else v.plainEmbeddings

mutual

def embeddings : Value → List (String × Bool)
  | .table entries => entryEmbeddings entries
  | .array items =>
    if isTableArray (.array items) then recordEmbeddings items else plainEmbeddings (.array items)
  | v => v.plainEmbeddings

def entryEmbeddings : List (String × Value) → List (String × Bool)
  | [] => []
  | (_, v) :: rest => v.embeddings ++ entryEmbeddings rest

def recordEmbeddings : List Value → List (String × Bool)
  | [] => []
  | .table entries :: rest => entryEmbeddings entries ++ recordEmbeddings rest
  | v :: rest => v.bypassed ++ recordEmbeddings rest

end

example : (Value.array [.string "a", .string "file:b"]).embeddings = [("file:b", false)] :=
  rfl

def embedded (marked : List (String × Bool)) : List String :=
  (marked.filter Prod.snd).map Prod.fst

@[simp]
theorem embedded_append (marked others : List (String × Bool)) :
    embedded (marked ++ others) = embedded marked ++ embedded others := by
  rw [embedded, List.filter_append, List.map_append]
  rfl

@[simp]
theorem embedded_bypassed (v : Value) : embedded v.bypassed = [] := by
  simp [embedded, bypassed]

theorem map_fst_bypassed (v : Value) : v.bypassed.map Prod.fst = v.references := by
  rw [bypassed, List.map_map]
  exact List.map_id _

mutual

theorem map_fst_plainEmbeddings : ∀ v : Value, v.plainEmbeddings.map Prod.fst = v.references
  | .string text => by
      rw [plainEmbeddings, references, apply_ite (List.map Prod.fst)]
      rfl
  | .array items => by
      rw [plainEmbeddings]
      split
      · exact map_fst_bypassed _
      · exact map_fst_itemEmbeddings items
  | .table _ => map_fst_bypassed _
  | .integer _ | .float _ | .boolean _ | .moment _ | .absent => rfl

theorem map_fst_itemEmbeddings {keeps : Bool} : ∀ items : List Value,
    (itemEmbeddings keeps items).map Prod.fst = itemReferences items
  | [] => rfl
  | v :: rest => by
      rw [itemEmbeddings, itemReferences, List.map_append, apply_ite (List.map Prod.fst),
        map_fst_bypassed, map_fst_plainEmbeddings v, ite_self, map_fst_itemEmbeddings rest]

end

mutual

/-- Every reference has one mark. -/
theorem map_fst_embeddings : ∀ v : Value, v.embeddings.map Prod.fst = v.references
  | .table entries => map_fst_entryEmbeddings entries
  | .array items => by
      rw [embeddings]
      split
      · exact map_fst_recordEmbeddings items
      · exact map_fst_plainEmbeddings _
  | .string _ | .integer _ | .float _ | .boolean _ | .moment _ | .absent =>
      map_fst_plainEmbeddings _

theorem map_fst_entryEmbeddings : ∀ entries : List (String × Value),
    (entryEmbeddings entries).map Prod.fst = entryReferences entries
  | [] => rfl
  | (_, v) :: rest => by
      rw [entryEmbeddings, entryReferences, List.map_append, map_fst_embeddings v,
        map_fst_entryEmbeddings rest]

theorem map_fst_recordEmbeddings : ∀ items : List Value,
    (recordEmbeddings items).map Prod.fst = itemReferences items
  | [] => rfl
  | .table entries :: rest => by
      rw [recordEmbeddings, itemReferences, List.map_append, map_fst_entryEmbeddings entries,
        map_fst_recordEmbeddings rest]
      rfl
  | .string _ :: rest | .integer _ :: rest | .float _ :: rest | .boolean _ :: rest
  | .moment _ :: rest | .array _ :: rest | .absent :: rest => by
      rw [recordEmbeddings, itemReferences, List.map_append, map_fst_bypassed,
        map_fst_recordEmbeddings rest]
      rintro _ ⟨⟩

end

theorem mem_of_embedded {v : Value} {reference : String} (h : reference ∈ embedded v.embeddings) :
    reference ∈ v.references := by
  rw [← map_fst_embeddings v]
  exact List.map_subset _ (List.filter_subset_self _) h

theorem embedded_entryEmbeddings (entries : Table) : embedded (entryEmbeddings entries) =
    entries.flatMap fun entry => embedded entry.2.embeddings := by
  induction entries with
  | nil => rfl
  | cons entry entries ih => rw [entryEmbeddings, embedded_append, ih, List.flatMap_cons]

theorem keepsStrings_cons (first : Value) (rest : List Value) :
    keepsStrings (first :: rest) = (first.kind == .string) :=
  rfl

theorem itemEmbeddings_cons (keeps : Bool) (v : Value) (rest : List Value) :
    itemEmbeddings keeps (v :: rest) = v.elementEmbeddings keeps ++ itemEmbeddings keeps rest :=
  rfl

theorem embedded_string (text : String) : embedded (string text).plainEmbeddings =
    if TypedConfig.isReference text then [text] else [] := by
  rw [plainEmbeddings, apply_ite embedded]
  rfl

theorem embedded_elementEmbeddings_string (keeps : Bool) (text : String) :
    embedded ((string text).elementEmbeddings keeps) =
      if keeps then [] else embedded (string text).plainEmbeddings := by
  cases keeps with
  | true => exact embedded_bypassed _
  | false => rfl

theorem elementEmbeddings_of_not_isString {keeps : Bool} {v : Value} (h : v.isString = false) :
    v.elementEmbeddings keeps = v.plainEmbeddings := by
  rw [elementEmbeddings, h, Bool.and_false]
  rfl

end TypedConfig.Value
