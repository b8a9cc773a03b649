import TypedConfig.Files.Reference
import TypedConfig.Proofs.Files.NullByte
import TypedConfig.Proofs.Value.Sorted
import Mathlib.Data.List.Forall2

namespace TypedConfig

namespace FileSystem

variable (store : FileStore) (path : Path)

theorem absolute_store : FileSystem.absolute store path = store.absolute path :=
  rfl

theorem size_store : FileSystem.size store path = store.size path :=
  rfl

theorem content_store : FileSystem.content store path = store.content path :=
  rfl

end FileSystem

namespace Value

mutual

def references : Value → List String
  | .string text => if TypedConfig.isReference text then [text] else []
  | .array items => itemReferences items
  | .table entries => entryReferences entries
  | _ => []

def itemReferences : List Value → List String
  | [] => []
  | v :: rest => v.references ++ itemReferences rest

def entryReferences : List (String × Value) → List String
  | [] => []
  | (_, v) :: rest => v.references ++ entryReferences rest

end

theorem entryReferences_eq_flatMap (entries : Table) :
    entryReferences entries = entries.flatMap (·.2.references) := by
  induction entries with
  | nil => rfl
  | cons entry entries ih => rw [entryReferences, ih, List.flatMap_cons]

theorem mem_entryReferences {entries : Table} {e : String × Value} {text : String}
    (he : e ∈ entries) (h : text ∈ e.2.references) : text ∈ entryReferences entries := by
  rw [entryReferences_eq_flatMap]
  exact List.mem_flatMap.2 ⟨e, he, h⟩

theorem entryReferences_sortByKey_perm (entries : Table) :
    (entryReferences (Table.sortByKey entries)).Perm (entryReferences entries) := by
  rw [entryReferences_eq_flatMap, entryReferences_eq_flatMap]
  exact (Table.sortByKey_perm entries).flatMap_right _

mutual

/-- Putting keys in order loses no reference. -/
theorem references_sorted_perm : ∀ v : Value, v.sorted.references.Perm v.references
  | .array items => itemReferences_sorted_perm items
  | .table entries =>
      (entryReferences_sortByKey_perm _).trans (entryReferences_sorted_perm entries)
  | .string _ | .integer _ | .float _ | .boolean _ | .moment _ | .absent => .refl _

theorem itemReferences_sorted_perm :
    ∀ items : List Value, (itemReferences (sortedItems items)).Perm (itemReferences items)
  | [] => .refl _
  | v :: rest => (references_sorted_perm v).append (itemReferences_sorted_perm rest)

theorem entryReferences_sorted_perm : ∀ entries : List (String × Value),
    (entryReferences (sortedEntries entries)).Perm (entryReferences entries)
  | [] => .refl _
  | (_, v) :: rest => (references_sorted_perm v).append (entryReferences_sorted_perm rest)

end

theorem entryReferences_sortedTable_perm (t : Table) :
    (entryReferences t.sorted).Perm (entryReferences t) :=
  (entryReferences_sortByKey_perm _).trans (entryReferences_sorted_perm t)

mutual

theorem isReference_of_mem {text : String} :
    ∀ v : Value, text ∈ v.references → TypedConfig.isReference text
  | .string _, h => by
      rw [references] at h
      split at h
      · next hreference =>
        rw [List.mem_singleton.1 h]
        exact hreference
      · cases h
  | .array items, h => isReference_of_mem_items items h
  | .table entries, h => isReference_of_mem_entries entries h

theorem isReference_of_mem_items {text : String} :
    ∀ items : List Value, text ∈ itemReferences items → TypedConfig.isReference text
  | v :: rest, h => by
      rw [itemReferences, List.mem_append] at h
      exact h.elim (isReference_of_mem v) (isReference_of_mem_items rest)

theorem isReference_of_mem_entries {text : String} :
    ∀ entries : List (String × Value), text ∈ entryReferences entries →
      TypedConfig.isReference text
  | (_, v) :: rest, h => by
      rw [entryReferences, List.mem_append] at h
      exact h.elim (isReference_of_mem v) (isReference_of_mem_entries rest)

end

end Value

namespace Loader

variable {σ : Type} [FileSystem σ]

def loadAll (store : σ) : List String → ExceptT ReferenceError (StateM Loader) Unit
  | [] => return ()
  | text :: rest => do
    let _ ← load store text
    loadAll store rest

variable {store : σ} {loader before after : Loader}

theorem loadAll_append (texts others : List String) :
    loadAll store (texts ++ others) =
      loadAll store texts >>= fun _ => loadAll store others := by
  induction texts with
  | nil => simp [loadAll]
  | cons text texts ih => simp [loadAll, ih]

mutual

theorem validate_eq : ∀ v : Value, validate store v = do
    loadAll store v.references
    return v.references.length
  | .string text => by
      rw [validate, Value.references]
      split
      · simp [loadAll]
      · simp [loadAll]
  | .array items => by
      rw [validate, Value.references]
      exact validateItems_eq items
  | .table entries => by
      rw [validate, Value.references]
      exact validateEntries_eq entries
  | .integer _ | .float _ | .boolean _ | .moment _ | .absent => by
      simp [validate, Value.references, loadAll]

theorem validateItems_eq : ∀ items : List Value, validateItems store items = do
    loadAll store (Value.itemReferences items)
    return (Value.itemReferences items).length
  | [] => by simp [validateItems, Value.itemReferences, loadAll]
  | v :: rest => by
      rw [validateItems, validate_eq v, validateItems_eq rest, Value.itemReferences,
        loadAll_append]
      simp

theorem validateEntries_eq : ∀ entries : Table, validateEntries store entries = do
    loadAll store (Value.entryReferences entries)
    return (Value.entryReferences entries).length
  | [] => by simp [validateEntries, Value.entryReferences, loadAll]
  | (_, v) :: rest => by
      rw [validateEntries, validate_eq v, validateEntries_eq rest, Value.entryReferences,
        loadAll_append]
      simp

end

theorem loadAll_eq_mapM (texts : List String) :
    loadAll store texts = (fun _ => ()) <$> texts.mapM (load store) := by
  induction texts with
  | nil => simp [loadAll]
  | cons text texts ih => simp [loadAll, ih, List.mapM_cons]

theorem length_mapM (texts : List String) : List.length <$> texts.mapM (load store) = do
    loadAll store texts
    return texts.length := by
  induction texts with
  | nil => simp [loadAll]
  | cons text texts ih =>
      have hrest := congrArg ((· + 1) <$> ·) ih
      simp only [Functor.map_map, bind_pure_comp] at hrest
      simp [loadAll, List.mapM_cons, hrest]

/-- Validation loads all references of a configuration in the order of the document. -/
theorem validateEntries_eq_mapM (entries : Table) : validateEntries store entries =
    List.length <$> (Value.entryReferences entries).mapM (load store) := by
  rw [validateEntries_eq, length_mapM]

theorem outcome_mapM_of_validated {entries : Table} {count : Nat}
    (h : outcome (validateEntries store entries) before = (.ok count, after)) :
    ∃ contents, outcome ((Value.entryReferences entries).mapM (load store)) before =
      (.ok contents, after) := by
  rw [validateEntries_eq_mapM, outcome_map] at h
  rcases hrun : outcome ((Value.entryReferences entries).mapM (load store)) before with
    ⟨error | contents, last⟩
  · rw [hrun] at h
    cases h
  · rw [hrun] at h
    cases h
    exact ⟨contents, rfl⟩

/-- A reference is resolved to the content at its path, unless that is too large. -/
theorem resolve_eq_ok_iff_content {base : Option Path} {limit : Int} {text : String} {path : Path}
    {content : ByteArray} (hpath : Reference.path base text = .ok path) :
    Reference.resolve store base limit text = .ok content ↔ ∃ size,
      FileSystem.size store path = .ok size ∧ (0 < limit → size ≤ limit) ∧
        FileSystem.content store path = .ok content := by
  rw [Reference.resolve, hpath]
  simp only [except_bind_eq_ok_iff, except_mapError_eq_ok_iff, Except.ok.injEq, exists_eq_left']
  refine exists_congr fun size => and_congr_right fun _ => ?_
  by_cases hlarge : 0 < limit ∧ limit < size
  · rw [if_pos hlarge]
    exact iff_of_false nofun fun h => absurd (h.1 hlarge.1) (Int.not_le.2 hlarge.2)
  · rw [if_neg hlarge, except_mapError_eq_ok_iff]
    exact (and_iff_right fun hpos => Int.not_lt.1 fun h => hlarge ⟨hpos, h⟩).symm

/-- A file is read if the path can be followed to it and it is not too large. -/
theorem resolve_eq_ok_iff {store : FileStore} {base : Option Path} {limit : Int} {text : String}
    {path : Path} {content : ByteArray} (hpath : Reference.path base text = .ok path) :
    Reference.resolve store base limit text = .ok content ↔ ∃ location file,
      store.locate path = .ok location ∧ store.files.lookup location = some file ∧
        file.content = content ∧ (0 < limit → content.size ≤ limit) := by
  simp only [resolve_eq_ok_iff_content hpath, FileSystem.size_store, FileSystem.content_store]
  constructor
  · rintro ⟨size, hsize, hsmall, hcontent⟩
    obtain ⟨file, hfind, rfl⟩ := FileStore.content_eq_ok_iff.1 hcontent
    obtain ⟨location, hlocate, hnode⟩ := FileStore.find_eq_ok_iff.1 hfind
    rw [FileStore.size_of_find hfind] at hsize
    obtain rfl := Except.ok.inj hsize
    exact ⟨location, file, hlocate, FileStore.node?_eq_file_iff.1 hnode, rfl, hsmall⟩
  · rintro ⟨location, file, hlocate, hlookup, rfl, hsmall⟩
    have hfind : store.find path = .ok (.file file) :=
      FileStore.find_eq_ok_iff.2 ⟨location, hlocate, FileStore.node?_of_lookup hlookup⟩
    exact ⟨_, FileStore.size_of_find hfind, hsmall,
      FileStore.content_eq_ok_iff.2 ⟨file, hfind, rfl⟩⟩

def Holds (store : σ) (loader : Loader) (text : String) : Prop :=
  ∃ path content, Reference.path loader.base text = .ok path ∧
    loader.cache.lookup (FileSystem.absolute store path) = some content

def Supplies (store : σ) (loader : Loader) (text : String) (content : ByteArray) : Prop :=
  ∃ path, Reference.path loader.base text = .ok path ∧
    loader.cache.lookup (FileSystem.absolute store path) = some content

theorem holds_iff {text : String} :
    loader.Holds store text ↔ ∃ content, loader.Supplies store text content :=
  ⟨fun ⟨path, content, h⟩ => ⟨content, path, h⟩, fun ⟨content, path, h⟩ => ⟨path, content, h⟩⟩

structure Extends (before after : Loader) : Prop where
  base : after.base = before.base
  lookup : ∀ {key content}, before.cache.lookup key = some content →
    after.cache.lookup key = some content

theorem Extends.refl (loader : Loader) : loader.Extends loader :=
  ⟨rfl, id⟩

theorem Extends.trans (h : before.Extends loader) (h' : loader.Extends after) :
    before.Extends after :=
  ⟨h'.base.trans h.base, fun hlookup => h'.lookup (h.lookup hlookup)⟩

theorem Holds.mono {text : String} (h : before.Holds store text) (hext : before.Extends after) :
    after.Holds store text := by
  obtain ⟨path, content, hpath, hlookup⟩ := h
  exact ⟨path, content, by rw [hext.base, hpath], hext.lookup hlookup⟩

theorem Supplies.mono {text : String} {content : ByteArray}
    (h : before.Supplies store text content) (hext : before.Extends after) :
    after.Supplies store text content := by
  obtain ⟨path, hpath, hlookup⟩ := h
  exact ⟨path, by rw [hext.base, hpath], hext.lookup hlookup⟩

theorem Supplies.unique {text : String} {content content' : ByteArray}
    (h : loader.Supplies store text content) (h' : loader.Supplies store text content') :
    content = content' := by
  obtain ⟨path, hpath, hlookup⟩ := h
  obtain ⟨path', hpath', hlookup'⟩ := h'
  rw [hpath] at hpath'
  obtain rfl := Except.ok.inj hpath'
  exact Option.some.inj (hlookup.symm.trans hlookup')

/-- What is at hand does not depend on the files, only on where relative paths start. -/
theorem Supplies.of_workingDirectory {store changed : FileStore} {text : String}
    {content : ByteArray} (h : loader.Supplies store text content)
    (hdirectory : changed.workingDirectory = store.workingDirectory) :
    loader.Supplies changed text content := by
  obtain ⟨path, hpath, hlookup⟩ := h
  refine ⟨path, hpath, ?_⟩
  rw [FileSystem.absolute_store, FileStore.absolute, FileStore.workingPath, hdirectory]
  exact hlookup

theorem outcome_load {text : String} {path : Path}
    (hpath : Reference.path loader.base text = .ok path) :
    outcome (load store text) loader =
      match loader.cache.lookup (FileSystem.absolute store path) with
      | some content => (.ok content, loader)
      | none =>
        match Reference.resolve store loader.base loader.limit text with
        | .ok content =>
          (.ok content,
            { loader with cache := loader.cache ++ [(FileSystem.absolute store path, content)] })
        | .error error => (.error error, loader) := by
  rw [load, outcome_bind_of_ok outcome_get, hpath]
  cases hlookup : loader.cache.lookup (FileSystem.absolute store path) with
  | some content => exact outcome_bind_of_ok (outcome_ofExcept _) |>.trans (by simp [hlookup])
  | none =>
      refine (outcome_bind_of_ok (outcome_ofExcept _)).trans ?_
      simp only [hlookup]
      cases Reference.resolve store loader.base loader.limit text with
      | ok content => rfl
      | error error => rfl

theorem Supplies.outcome_load {text : String} {content : ByteArray}
    (h : loader.Supplies store text content) :
    outcome (load store text) loader = (.ok content, loader) := by
  obtain ⟨path, hpath, hlookup⟩ := h
  rw [Loader.outcome_load hpath, hlookup]

theorem outcome_load_of_holds {text : String} (h : loader.Holds store text) :
    ∃ content, outcome (load store text) loader = (.ok content, loader) := by
  obtain ⟨content, h⟩ := holds_iff.1 h
  exact ⟨content, h.outcome_load⟩

def IsNew (store : σ) (loader : Loader) (text : String) : Prop :=
  ∀ path, Reference.path loader.base text = .ok path →
    loader.cache.lookup (FileSystem.absolute store path) = none

/-- How a load ends: with what is at hand, with what the files hold, or with an error. -/
inductive Loads (store : σ) (before : Loader) (text : String) :
    Except ReferenceError ByteArray → Loader → Prop
  | held {path : Path} {content : ByteArray} (hpath : Reference.path before.base text = .ok path)
      (hheld : before.cache.lookup (FileSystem.absolute store path) = some content) :
      Loads store before text (.ok content) before
  | read {path : Path} {content : ByteArray} (hpath : Reference.path before.base text = .ok path)
      (hnew : before.IsNew store text)
      (hresolve : Reference.resolve store before.base before.limit text = .ok content) :
      Loads store before text (.ok content)
        { before with cache := before.cache ++ [(FileSystem.absolute store path, content)] }
  | refused {error : ReferenceError} (hnew : before.IsNew store text)
      (hresolve : Reference.resolve store before.base before.limit text = .error error) :
      Loads store before text (.error error) before

theorem isNew_of_lookup {text : String} {path : Path}
    (hpath : Reference.path loader.base text = .ok path)
    (h : loader.cache.lookup (FileSystem.absolute store path) = none) :
    loader.IsNew store text := by
  intro other hother
  obtain rfl := Except.ok.inj (hpath.symm.trans hother)
  exact h

theorem loads_of_outcome {text : String} {result : Except ReferenceError ByteArray}
    (h : outcome (load store text) before = (result, after)) :
    Loads store before text result after := by
  cases hpath : Reference.path before.base text with
  | error error =>
      rw [load, outcome_bind_of_ok outcome_get, hpath] at h
      obtain ⟨rfl, rfl⟩ := Prod.mk.inj h
      refine .refused (fun path hother => ?_) ?_
      · rw [hpath] at hother
        cases hother
      · rw [Reference.resolve, hpath]
        rfl
  | ok path =>
      rw [outcome_load hpath] at h
      cases hlookup : before.cache.lookup (FileSystem.absolute store path) with
      | some content =>
          rw [hlookup] at h
          obtain ⟨rfl, rfl⟩ := Prod.mk.inj h
          exact .held hpath hlookup
      | none =>
          rw [hlookup] at h
          cases hresolve : Reference.resolve store before.base before.limit text with
          | ok content =>
              rw [hresolve] at h
              obtain ⟨rfl, rfl⟩ := Prod.mk.inj h
              exact .read hpath (isNew_of_lookup hpath hlookup) hresolve
          | error error =>
              rw [hresolve] at h
              obtain ⟨rfl, rfl⟩ := Prod.mk.inj h
              exact .refused (isNew_of_lookup hpath hlookup) hresolve

theorem lookup_added {cache : List (Path × ByteArray)} {key added : Path}
    {content new : ByteArray} : (cache ++ [(added, new)]).lookup key = some content ↔
      cache.lookup key = some content ∨ cache.lookup key = none ∧ key = added ∧ new = content := by
  rw [List.lookup_append, Option.or_eq_some_iff, List.lookup_cons]
  by_cases hkey : key = added
  · rw [hkey, BEq.rfl]
    simp
  · rw [beq_false_of_ne hkey]
    simp [hkey]

/-- What has been loaded is kept under its path. -/
theorem kept_of_load {text : String} {content : ByteArray}
    (h : outcome (load store text) before = (.ok content, after)) :
    before.Extends after ∧ after.Supplies store text content := by
  cases loads_of_outcome h with
  | held hpath hheld => exact ⟨.refl _, _, hpath, hheld⟩
  | read hpath hnew _ =>
      exact ⟨⟨rfl, fun hheld => lookup_added.2 (.inl hheld)⟩, _, hpath,
        lookup_added.2 (.inr ⟨hnew _ hpath, rfl, rfl⟩)⟩

theorem extends_of_load {text : String} {content : ByteArray}
    (h : outcome (load store text) before = (.ok content, after)) :
    before.Extends after ∧ after.Holds store text := by
  obtain ⟨hext, path, hpath, hlookup⟩ := kept_of_load h
  exact ⟨hext, path, content, hpath, hlookup⟩

theorem extends_of_loadAll {texts : List String}
    (h : outcome (loadAll store texts) before = (.ok (), after)) :
    before.Extends after ∧ ∀ text ∈ texts, after.Holds store text := by
  induction texts generalizing before with
  | nil =>
      obtain ⟨-, rfl⟩ := Prod.mk.inj h
      exact ⟨.refl _, by simp⟩
  | cons text texts ih =>
      rw [loadAll] at h
      obtain ⟨content, between, hload, hrest⟩ := outcome_bind_eq_ok.1 h
      obtain ⟨hfirst, hholds⟩ := extends_of_load hload
      obtain ⟨hext, hall⟩ := ih hrest
      exact ⟨hfirst.trans hext, List.forall_mem_cons.2 ⟨hholds.mono hext, hall⟩⟩

theorem supplies_of_mapM {texts : List String} {contents : List ByteArray}
    (h : outcome (texts.mapM (load store)) before = (.ok contents, after)) :
    before.Extends after ∧ List.Forall₂ (after.Supplies store) texts contents := by
  induction texts generalizing before contents with
  | nil =>
      rw [List.mapM_nil] at h
      obtain ⟨hcontents, rfl⟩ := Prod.mk.inj h
      obtain rfl := Except.ok.inj hcontents
      exact ⟨.refl _, .nil⟩
  | cons text texts ih =>
      rw [List.mapM_cons] at h
      obtain ⟨content, between, hload, h⟩ := outcome_bind_eq_ok.1 h
      obtain ⟨others, last, hrest, h⟩ := outcome_bind_eq_ok.1 h
      obtain ⟨hcontents, rfl⟩ := Prod.mk.inj h
      obtain rfl := Except.ok.inj hcontents
      obtain ⟨hext, hothers⟩ := ih hrest
      obtain ⟨hfirst, hcontent⟩ := kept_of_load hload
      exact ⟨hfirst.trans hext, .cons (hcontent.mono hext) hothers⟩

theorem holds_of_mapM {texts : List String} {contents : List ByteArray}
    (h : outcome (texts.mapM (load store)) before = (.ok contents, after)) :
    ∀ text ∈ texts, after.Holds store text := by
  have hall : outcome (loadAll store texts) before = (.ok (), after) := by
    rw [loadAll_eq_mapM, outcome_map, h]
    rfl
  exact (extends_of_loadAll hall).2

theorem exists_path {text : String} (base : Option Path) (htext : isReference text) :
    ∃ path, Reference.path base text = .ok path := by
  rw [Reference.path, htext]
  cases base with
  | none => exact ⟨_, rfl⟩
  | some directory => exact ⟨_, rfl⟩

theorem mapError_eq_nullByte_iff {α : Type} {path : Path} {x : Except Fault α} :
    x.mapError (ReferenceError.ofFault path) = .error .nullByte ↔ x = .error .nullByte := by
  cases x with
  | ok a => simp [Except.mapError]
  | error fault => cases fault <;> simp [Except.mapError, ReferenceError.ofFault]

theorem resolve_eq_nullByte_iff {store : FileStore} {base : Option Path} {limit : Int}
    {text : String} {path : Path} (hpath : Reference.path base text = .ok path) :
    Reference.resolve store base limit text = .error .nullByte ↔ path.HasNull := by
  rw [Reference.resolve, hpath, except_bind_eq_error_iff]
  simp only [reduceCtorEq, false_or, Except.ok.injEq, exists_eq_left',
    except_bind_eq_error_iff, mapError_eq_nullByte_iff, FileSystem.size_store,
    FileStore.size_eq_nullByte_iff]
  refine or_iff_left_of_imp ?_
  rintro ⟨size, -, h⟩
  split at h
  · cases h
  · exact FileStore.content_eq_nullByte_iff.1 (mapError_eq_nullByte_iff.1 h)

/-- A reference that has to be read fails for a null character in its path. -/
theorem load_eq_nullByte_iff {store : FileStore} {text : String} (htext : isReference text) :
    (outcome (load store text) loader).1 = .error .nullByte ↔
      ¬ loader.Holds store text ∧
        ∃ path, Reference.path loader.base text = .ok path ∧ path.HasNull := by
  obtain ⟨path, hpath⟩ := exists_path loader.base htext
  rw [outcome_load hpath, Holds]
  simp only [hpath, Except.ok.injEq, exists_and_left, exists_eq_left',
    ← Option.ne_none_iff_exists', ne_eq, not_not]
  cases hlookup : loader.cache.lookup (FileSystem.absolute store path) with
  | some content => simp
  | none =>
      rw [← resolve_eq_nullByte_iff hpath]
      cases Reference.resolve store loader.base loader.limit text <;> simp

theorem loadAll_eq_error_iff {texts : List String} {error : ReferenceError} :
    (outcome (loadAll store texts) before).1 = .error error ↔
      ∃ done text rest between, texts = done ++ text :: rest ∧
        outcome (loadAll store done) before = (.ok (), between) ∧
        (outcome (load store text) between).1 = .error error := by
  constructor
  · intro h
    induction texts generalizing before with
    | nil => cases h
    | cons text texts ih =>
        rw [loadAll] at h
        rcases hload : outcome (load store text) before with ⟨error' | content, between⟩
        · rw [outcome_bind_of_error hload] at h
          obtain rfl := Except.error.inj h
          exact ⟨[], text, texts, before, rfl, rfl, by rw [hload]⟩
        · rw [outcome_bind_of_ok hload] at h
          obtain ⟨done, failing, rest, last, rfl, hdone, hfails⟩ := ih h
          refine ⟨text :: done, failing, rest, last, rfl, ?_, hfails⟩
          rw [loadAll, outcome_bind_of_ok hload, hdone]
  · rintro ⟨done, text, rest, between, rfl, hdone, hfails⟩
    rcases hload : outcome (load store text) between with ⟨error' | content, last⟩
    · rw [hload] at hfails
      obtain rfl := Except.error.inj hfails
      rw [loadAll_append, outcome_bind_of_ok hdone, loadAll, outcome_bind_of_error hload]
    · rw [hload] at hfails
      cases hfails

def MeetsNull (store : FileStore) (loader : Loader) (texts : List String) : Prop :=
  ∃ done text rest between path, texts = done ++ text :: rest ∧
    outcome (loadAll store done) loader = (.ok (), between) ∧ ¬ between.Holds store text ∧
    Reference.path loader.base text = .ok path ∧ path.HasNull

theorem loadAll_eq_nullByte_iff {store : FileStore} {texts : List String}
    (htexts : ∀ text ∈ texts, isReference text) :
    (outcome (loadAll store texts) loader).1 = .error .nullByte ↔
      MeetsNull store loader texts := by
  rw [loadAll_eq_error_iff]
  constructor
  · rintro ⟨done, text, rest, between, rfl, hdone, hload⟩
    have htext := htexts text (List.mem_append_right done (List.mem_cons_self ..))
    obtain ⟨hnew, path, hpath, hnull⟩ := (load_eq_nullByte_iff htext).1 hload
    rw [(extends_of_loadAll hdone).1.base] at hpath
    exact ⟨done, text, rest, between, path, rfl, hdone, hnew, hpath, hnull⟩
  · rintro ⟨done, text, rest, between, path, rfl, hdone, hnew, hpath, hnull⟩
    have htext := htexts text (List.mem_append_right done (List.mem_cons_self ..))
    rw [← (extends_of_loadAll hdone).1.base] at hpath
    exact ⟨done, text, rest, between, rfl, hdone,
      (load_eq_nullByte_iff htext).2 ⟨hnew, path, hpath, hnull⟩⟩

theorem ofFault_ne_notReference {path : Path} {fault : Fault} {text : String} :
    ReferenceError.ofFault path fault ≠ .notReference text := by
  cases fault <;> simp [ReferenceError.ofFault]

theorem resolve_ne_notReference {base : Option Path} {limit : Int} {text other : String}
    {path : Path} (hpath : Reference.path base text = .ok path) :
    Reference.resolve store base limit text ≠ .error (.notReference other) := by
  have hfault {α : Type} (x : Except Fault α) :
      x.mapError (ReferenceError.ofFault path) ≠ .error (.notReference other) := by
    cases x with
    | ok a => simp [Except.mapError]
    | error fault => simpa [Except.mapError] using ofFault_ne_notReference
  rw [Reference.resolve, hpath]
  intro h
  obtain h | ⟨_, h, hrest⟩ := except_bind_eq_error_iff.1 h
  · cases h
  · cases h
    obtain h | ⟨size, -, hread⟩ := except_bind_eq_error_iff.1 hrest
    · exact hfault _ h
    · split at hread
      · cases hread
      · exact hfault _ hread

theorem loadAll_ne_notReference {texts : List String} (htexts : ∀ text ∈ texts, isReference text)
    (other : String) :
    (outcome (loadAll store texts) loader).1 ≠ .error (.notReference other) := by
  intro h
  obtain ⟨done, text, rest, between, rfl, -, hload⟩ := loadAll_eq_error_iff.1 h
  obtain ⟨path, hpath⟩ := exists_path between.base
    (htexts text (List.mem_append_right done (List.mem_cons_self ..)))
  rw [outcome_load hpath] at hload
  split at hload
  · cases hload
  · split at hload
    · cases hload
    · next error herror =>
      cases hload
      exact resolve_ne_notReference hpath herror

end Loader

end TypedConfig
