import TypedConfig.Proofs.Files.Normal
import TypedConfig.Proofs.Files.Session

/-!
What loading through a cache returns while the files stay as they are. It is what the file system
returns, unless a path that cannot be followed has the normal form of one that was read before
(`Session.loads_resolve_iff`): the cache goes by the normal form, the file system by the path.
-/

namespace TypedConfig.Loader

/-- The other reference is read, and this one has the same normal form but cannot be followed. -/
def Masks (store : FileStore) (base : Option Path) (limit : Int) (other text : String) : Prop :=
  ∃ path content fault, Reference.path base text = .ok path ∧
    keyOf store base other = some (store.absolute path) ∧
    Reference.resolve store base limit other = .ok content ∧ store.locate path = .error fault

section Lookups

variable {store : FileStore} {base : Option Path} {limit : Int} {other text : String}
  {lookups : List Lookup} {l : Lookup} {path key : Path} {content content' : ByteArray}

theorem keyOf_eq_some_iff : keyOf store base text = some key ↔
    ∃ path, Reference.path base text = .ok path ∧ store.absolute path = key := by
  rw [keyOf]
  cases Reference.path base text <;> simp [Except.toOption]

/-- A path that can be followed leads to what was read for any other of its normal form. -/
theorem resolve_of_locate (hstore : store.Rooted) (hpath : Reference.path base text = .ok path)
    (hkey : keyOf store base other = some (store.absolute path))
    (hread : Reference.resolve store base limit other = .ok content) {location : Location}
    (hlocate : store.locate path = .ok location) :
    Reference.resolve store base limit text = .ok content := by
  obtain ⟨path', hother, hsame⟩ := keyOf_eq_some_iff.1 hkey
  obtain ⟨found, file, hfound, hlookup, hcontent, hsmall⟩ := (resolve_eq_ok_iff hother).1 hread
  rw [FileStore.location_of_locate hstore hfound, hsame,
    ← FileStore.location_of_locate hstore hlocate] at hlookup
  exact (resolve_eq_ok_iff hpath).2 ⟨location, file, hlocate, hlookup, hcontent, hsmall⟩

theorem resolve_of_not_masks (hstore : store.Rooted) (hmasks : ¬ Masks store base limit other text)
    (hother : keyOf store base other = some key) (htext : keyOf store base text = some key)
    (hread : Reference.resolve store base limit other = .ok content) :
    Reference.resolve store base limit text = .ok content := by
  obtain ⟨path, hpath, rfl⟩ := keyOf_eq_some_iff.1 htext
  cases hlocate : store.locate path with
  | error fault => exact absurd ⟨path, content, fault, hpath, hother, hread, hlocate⟩ hmasks
  | ok location => exact resolve_of_locate hstore hpath hother hread hlocate

theorem resolve_ne_ok_of_masks (hmasks : Masks store base limit other text) :
    Reference.resolve store base limit text ≠ .ok content := by
  obtain ⟨path, -, fault, hpath, -, -, hlocate⟩ := hmasks
  intro h
  obtain ⟨location, -, hfound, -⟩ := (resolve_eq_ok_iff hpath).1 h
  rw [hlocate] at hfound
  cases hfound

theorem resolve_unique (hstore : store.Rooted) (hother : keyOf store base other = some key)
    (htext : keyOf store base text = some key)
    (hread : Reference.resolve store base limit other = .ok content)
    (hread' : Reference.resolve store base limit text = .ok content') : content = content' := by
  obtain ⟨path, hpath, rfl⟩ := keyOf_eq_some_iff.1 hother
  obtain ⟨path', hpath', hsame⟩ := keyOf_eq_some_iff.1 htext
  have hfile := lookup_of_resolve hstore hpath' hread'
  rw [hsame, lookup_of_resolve hstore hpath hread] at hfile
  exact Option.some.inj hfile

/-- While the files stay as they are, what was first read at a path is what a reference to it that
was looked up is resolved to. -/
theorem firstRead_eq_some_iff (hstore : store.Rooted) (hdue : AllDue base limit lookups)
    (hall : ∀ l ∈ lookups, l.store = store) : firstRead base lookups key = some content ↔
      ∃ l ∈ lookups, keyOf store base l.text = some key ∧
        Reference.resolve store base limit l.text = .ok content := by
  -- By the last lookup, since what one is due depends on those before it.
  induction lookups using List.reverseRecOn generalizing content with
  | nil => simp [firstRead]
  | append_singleton lookups l ih =>
      obtain ⟨hearlier, hlast⟩ := allDue_concat_iff.1 hdue
      obtain ⟨hstores, hl⟩ := List.forall_mem_append.1 hall
      obtain rfl := List.forall_mem_singleton.1 hl
      have hread := @ih content hearlier hstores
      rw [firstRead_concat, Option.or_eq_some_iff]
      constructor
      · rintro (hfirst | ⟨hnone, hcontent⟩)
        · obtain ⟨l', hl', hresolve⟩ := hread.1 hfirst
          exact ⟨l', List.mem_append_left _ hl', hresolve⟩
        · obtain ⟨hkey, hresult⟩ := Lookup.contentAt?_eq_some_iff.1 hcontent
          rw [hresult, due, hkey, Option.bind_some, hnone] at hlast
          exact ⟨l, List.mem_append_right _ (List.mem_singleton_self l), hkey, hlast.symm⟩
      · rintro ⟨l', hl', hkey, hresolve⟩
        obtain hl' | hl' := List.mem_append.1 hl'
        · exact .inl (hread.2 ⟨l', hl', hkey, hresolve⟩)
        · rw [List.mem_singleton.1 hl'] at hkey hresolve
          cases hfirst : firstRead base lookups key with
          | some first =>
              obtain ⟨before, -, hbefore, hother⟩ := (ih hearlier hstores).1 hfirst
              exact .inl (congrArg some (resolve_unique hstore hbefore hkey hother hresolve))
          | none =>
              have hnew : l.key? base = some key := hkey
              rw [due, hnew, Option.bind_some, hfirst] at hlast
              exact .inr ⟨rfl, Lookup.contentAt?_eq_some_iff.2 ⟨hkey, hlast.trans hresolve⟩⟩

/-- A lookup returns what the file system does unless one before it masks its reference. -/
theorem due_eq_resolve_iff (hdue : AllDue base limit lookups)
    (hall : ∀ l ∈ lookups, l.store = store) (hstore : store.Rooted) (hl : l.store = store) :
    due base limit lookups l = Reference.resolve store base limit l.text ↔
      ∀ l' ∈ lookups, ¬ Masks store base limit l'.text l.text := by
  subst hl
  constructor
  · rintro h l' hl' hmasks
    have hfails (content : ByteArray) :
        Reference.resolve l.store base limit l.text ≠ .ok content := resolve_ne_ok_of_masks hmasks
    obtain ⟨path, content, fault, hpath, hkey, hread, -⟩ := hmasks
    have hfirst := (firstRead_eq_some_iff hstore hdue hall).2 ⟨l', hl', hkey, hread⟩
    have hsame : l.key? base = some (l.store.absolute path) :=
      keyOf_eq_some_iff.2 ⟨path, hpath, rfl⟩
    rw [due, hsame, Option.bind_some, hfirst] at h
    exact hfails content h.symm
  · intro h
    rw [due]
    split
    · next content hcontent =>
      obtain ⟨key, hkey, hfirst⟩ := Option.bind_eq_some_iff.1 hcontent
      obtain ⟨l', hl', hother, hread⟩ := (firstRead_eq_some_iff hstore hdue hall).1 hfirst
      exact (resolve_of_not_masks hstore (h l' hl') hother hkey hread).symm
    · rfl

/-- Lookups return what the file system does exactly if none masks one after it. -/
theorem results_eq_resolve_iff (hstore : store.Rooted) (hdue : AllDue base limit lookups)
    (hall : ∀ l ∈ lookups, l.store = store) : lookups.map Lookup.result =
        (lookups.map Lookup.text).map (Reference.resolve store base limit) ↔
      (lookups.map Lookup.text).Pairwise fun other text => ¬ Masks store base limit other text := by
  induction lookups using List.reverseRecOn with
  | nil => exact iff_of_true rfl .nil
  | append_singleton lookups l ih =>
      obtain ⟨hearlier, hlast⟩ := allDue_concat_iff.1 hdue
      obtain ⟨hstores, hl⟩ := List.forall_mem_append.1 hall
      obtain rfl := hl l (List.mem_singleton_self l)
      have hmasked := due_eq_resolve_iff hearlier hstores hstore rfl
      rw [← hlast] at hmasked
      simp only [List.map_append, List.map_singleton, List.pairwise_append,
        List.append_singleton_inj, ih hearlier hstores, hmasked]
      simp

end Lookups

/-- Whatever is asked for next, the second loader returns what the first does: it holds what the
first holds, and what it holds beyond that is what the file system would return. -/
structure Ahead (store : FileStore) (texts : List String) (loader other : Loader) : Prop where
  beneath : other.base = loader.base
  bound : other.limit = loader.limit
  held : ∀ key content, loader.cache.lookup key = some content →
    other.cache.lookup key = some content
  read : ∀ text ∈ texts, ∀ key content, keyOf store loader.base text = some key →
    loader.cache.lookup key = none → other.cache.lookup key = some content →
      Reference.resolve store loader.base loader.limit text = .ok content

section Validation

variable {store : FileStore} {texts others : List String} {text : String} {loader other : Loader}

theorem lookup_added_eq_none {cache : List (Path × ByteArray)} {key added : Path}
    {new : ByteArray} :
    (cache ++ [(added, new)]).lookup key = none ↔ cache.lookup key = none ∧ key ≠ added := by
  rw [List.lookup_append, Option.or_eq_none_iff, List.lookup_cons]
  refine and_congr_right fun _ => ?_
  by_cases hkey : key = added
  · rw [hkey, BEq.rfl]
    simp
  · rw [beq_false_of_ne hkey]
    simp [hkey]

/-- The first loader reads what the second has. -/
theorem Ahead.catchUp {key : Path} {content : ByteArray} (h : Ahead store texts loader other)
    (hheld : other.cache.lookup key = some content) :
    Ahead store texts { loader with cache := loader.cache ++ [(key, content)] } other where
  beneath := h.beneath
  bound := h.bound
  held known content hcontent := by
    obtain hcontent | ⟨-, rfl, rfl⟩ := lookup_added.1 hcontent
    · exact h.held known content hcontent
    · exact hheld
  read text htext known content hkey hnone :=
    h.read text htext known content hkey (lookup_added_eq_none.1 hnone).1

/-- Both loaders read what neither has. -/
theorem Ahead.keepUp {key : Path} (content : ByteArray) (h : Ahead store texts loader other)
    (hnew : other.cache.lookup key = none) :
    Ahead store texts { loader with cache := loader.cache ++ [(key, content)] }
      { other with cache := other.cache ++ [(key, content)] } where
  beneath := h.beneath
  bound := h.bound
  held known content hcontent := by
    obtain hcontent | ⟨-, rfl, rfl⟩ := lookup_added.1 hcontent
    · exact lookup_added.2 (.inl (h.held known content hcontent))
    · exact lookup_added.2 (.inr ⟨hnew, rfl, rfl⟩)
  read text htext known content hkey hnone hcontent := by
    obtain ⟨hnone, hne⟩ := lookup_added_eq_none.1 hnone
    obtain hcontent | ⟨-, rfl, -⟩ := lookup_added.1 hcontent
    · exact h.read text htext known content hkey hnone hcontent
    · exact absurd rfl hne

theorem Ahead.load (h : Ahead store texts loader other) (htext : text ∈ texts) :
    (outcome (load store text) other).1 = (outcome (load store text) loader).1 ∧
      Ahead store texts (outcome (load store text) loader).2
        (outcome (load store text) other).2 := by
  have hbase := h.beneath
  cases hpath : Reference.path loader.base text with
  | error error =>
      rw [Loader.load, outcome_bind_of_ok outcome_get, outcome_bind_of_ok outcome_get, hbase, hpath]
      exact ⟨rfl, h⟩
  | ok path =>
      have hkey : keyOf store loader.base text = some (store.absolute path) :=
        keyOf_eq_some_iff.2 ⟨path, hpath, rfl⟩
      have hresolve : Reference.resolve store other.base other.limit text =
          Reference.resolve store loader.base loader.limit text := by
        rw [hbase, h.bound]
      rw [outcome_load hpath, outcome_load (hbase ▸ hpath), hresolve,
        FileSystem.absolute_store]
      -- What the one has read the other has too; what only the other has it may have read for this.
      cases hlookup : loader.cache.lookup (store.absolute path) with
      | some content =>
          rw [h.held _ _ hlookup]
          exact ⟨rfl, h⟩
      | none =>
          cases hlookup' : other.cache.lookup (store.absolute path) with
          | some content =>
              rw [h.read text htext _ content hkey hlookup hlookup']
              exact ⟨rfl, h.catchUp hlookup'⟩
          | none =>
              cases Reference.resolve store loader.base loader.limit text with
              | error error => exact ⟨rfl, h⟩
              | ok content => exact ⟨rfl, h.keepUp content hlookup'⟩

theorem Ahead.loadAll (h : Ahead store texts loader other) (hsub : ∀ text ∈ others, text ∈ texts) :
    (outcome (loadAll store others) other).1 = (outcome (loadAll store others) loader).1 := by
  induction others generalizing loader other with
  | nil => rfl
  | cons text others ih =>
      obtain ⟨htext, hothers⟩ := List.forall_mem_cons.1 hsub
      obtain ⟨hsame, hnext⟩ := h.load htext
      rw [Loader.loadAll, outcome_bind, outcome_bind]
      rcases hload : outcome (Loader.load store text) loader with ⟨result, after⟩
      rcases hload' : outcome (Loader.load store text) other with ⟨result', after'⟩
      rw [hload, hload'] at hsame hnext
      dsimp only at hsame hnext
      subst hsame
      cases result' with
      | error error => rfl
      | ok content => exact ih hnext hothers

theorem Ahead.validateEntries {tree : Table}
    (h : Ahead store (Value.entryReferences tree) loader other) :
    (outcome (validateEntries store tree) other).1 =
      (outcome (validateEntries store tree) loader).1 := by
  have hall := h.loadAll fun _ htext => htext
  rw [validateEntries_eq, outcome_bind, outcome_bind]
  rcases hload : outcome (Loader.loadAll store (Value.entryReferences tree)) loader with
    ⟨result, after⟩
  rcases hload' : outcome (Loader.loadAll store (Value.entryReferences tree)) other with
    ⟨result', after'⟩
  rw [hload, hload'] at hall
  dsimp only at hall
  subst hall
  cases result' <;> rfl

end Validation

namespace Session

variable {store : FileStore}

/-- The lookups of references that are loaded one after the other, whatever comes of them. -/
theorem map_text_trace (s : Session) (texts : List String) :
    (s.trace (texts.map .load)).map Lookup.text = texts ∧
      ∀ l ∈ s.trace (texts.map .load), l.store = s.store := by
  induction texts generalizing s with
  | nil => exact ⟨rfl, nofun⟩
  | cons text texts ih =>
      obtain ⟨htexts, hstores⟩ := ih (s.next (.load text))
      exact ⟨congrArg (text :: ·) htexts, List.forall_mem_cons.2 ⟨rfl, hstores⟩⟩

/-- Loads return what the file system does exactly if none masks one after it. What a validation
ends with does not depend on the loads before it as long as none masks one of its references. -/
theorem loads_resolve_iff (hstore : store.Rooted) (base : Option Path) (limit : Int)
    (texts : List String) :
    let s := Session.mk store (new base limit)
    ((s.trace (texts.map .load)).map Lookup.result =
        texts.map (Reference.resolve store base limit) ↔
      texts.Pairwise fun other text => ¬ Masks store base limit other text) ∧
    ∀ tree, (∀ other ∈ texts, ∀ text ∈ Value.entryReferences tree,
        ¬ Masks store base limit other text) →
      (outcome (validateEntries store tree) (s.after (texts.map .load)).loader).1 =
        (outcome (validateEntries store tree) (new base limit)).1 := by
  obtain ⟨htexts, hstores⟩ := map_text_trace ⟨store, new base limit⟩ texts
  obtain ⟨hafter, hdue⟩ := (performs_trace ⟨store, new base limit⟩ (texts.map .load)).allDue
    (remembers_new base limit) (allDue_nil base limit)
  rw [List.nil_append] at hafter hdue
  refine ⟨?_, fun tree hmasks => Ahead.validateEntries ?_⟩
  · have hresults := results_eq_resolve_iff hstore hdue hstores
    rwa [htexts] at hresults
  · refine ⟨hafter.beneath, hafter.bound, nofun, fun text htext key content hkey _ hheld => ?_⟩
    rw [hafter.held] at hheld
    obtain ⟨l, hl, hother, hread⟩ := (firstRead_eq_some_iff hstore hdue hstores).1 hheld
    have hmem : l.text ∈ texts := htexts ▸ List.mem_map_of_mem hl
    exact resolve_of_not_masks hstore (hmasks l.text hmem text htext) hother hkey hread

def besideDirectory : FileStore :=
  ⟨[(["a"], ⟨1, snapshot⟩)], [["d"]], [], 2⟩

theorem loads_resolve_spellings :
    besideDirectory.Rooted ∧
      (["file:d/../a", "file:gone", "file:/a"].Pairwise fun other text =>
        ¬ Masks besideDirectory none 0 other text) ∧
      ¬ Masks besideDirectory none 0 "file:a" "file:d/../a" ∧
      (outcome (validateEntries besideDirectory [("x", .string "file:d/../a")])
          ((Session.mk besideDirectory (new none 0)).after [.load "file:a"]).loader).1 =
        (outcome (validateEntries besideDirectory [("x", .string "file:d/../a")])
          (new none 0)).1 := by
  have hrooted : besideDirectory.Rooted := nofun
  have hmasks : ¬ Masks besideDirectory none 0 "file:a" "file:d/../a" :=
    fun h => absurd (rfl : Reference.resolve _ _ _ _ = .ok snapshot) (resolve_ne_ok_of_masks h)
  refine ⟨hrooted, (loads_resolve_iff hrooted none 0 _).1.1 rfl, hmasks, ?_⟩
  refine (loads_resolve_iff hrooted none 0 ["file:a"]).2 _ fun other hother text htext => ?_
  obtain rfl := List.mem_singleton.1 hother
  obtain rfl := List.mem_singleton.1 htext
  exact hmasks

/-- A path through a directory that does not exist leads nowhere, and to the file once that was
read. -/
theorem not_all_loads_resolve : ¬ ∀ (store : FileStore) (base : Option Path) (limit : Int)
    (texts : List String), store.Rooted →
      ((Session.mk store (new base limit)).trace (texts.map .load)).map Lookup.result =
        texts.map (Reference.resolve store base limit) := by
  intro h
  have hresults : [Except.ok snapshot, .ok snapshot] =
      [.ok snapshot, .error (ReferenceError.notFound ⟨.none, ["gone", "..", "a"]⟩)] :=
    h besideDirectory none 0 ["file:a", "file:gone/../a"] nofun
  cases hresults

end Session

end TypedConfig.Loader
