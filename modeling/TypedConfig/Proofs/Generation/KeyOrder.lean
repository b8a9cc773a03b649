import TypedConfig.Proofs.Emission.Agreement
import TypedConfig.Proofs.Emission.KeyOrder
import TypedConfig.Proofs.Files.Links
import TypedConfig.Proofs.Generation.Escapes
import TypedConfig.Proofs.Go.ByteRows
import TypedConfig.Proofs.Override.Keys
import TypedConfig.Proofs.Override.Replacement

/-!
When the order of keys makes no difference to what is generated. Overrides replace each leaf on its
own, and tables are visited in the order of their keys wherever record types and literals are made.
But of several references to one absolute path the first in the document decides what is read
(`Generator.same_source_iff_oneContent`).
-/

namespace TypedConfig

namespace Schema

def fieldTypes (s : Schema) : List (String × Go.GoType) :=
  s.sortedFields.map fun f => (f.1, s.fieldType f.1 f.2)

/-- Record types that agree in all but the order in which their fields were met. -/
structure SameType (s t : Schema) : Prop where
  name : s.name = t.name
  path : s.path = t.path
  inArray : s.inArray = t.inArray
  fieldTypes : s.fieldTypes = t.fieldTypes

theorem fieldTypes_sorted (s : Schema) : s.sorted.fieldTypes = s.fieldTypes := by
  rw [Schema.fieldTypes, Schema.fieldTypes, Emitter.sortedFields_sorted, List.map_map]
  exact List.map_congr_left fun f _ => Prod.ext rfl (s.scope.fieldType_sorted f.1 f.2)

theorem sameType_of_sorted_eq {s t : Schema} (h : s.sorted = t.sorted) : s.SameType t where
  name := show s.sorted.name = t.sorted.name by rw [h]
  path := show s.sorted.path = t.sorted.path by rw [h]
  inArray := show s.sorted.inArray = t.sorted.inArray by rw [h]
  fieldTypes := by rw [← fieldTypes_sorted, h, fieldTypes_sorted]

end Schema

theorem Catalog.sameTypes_of_reordered {t u : Table} (hkeys : t.KeysDistinct)
    (h : t.Reordered u) :
    List.Forall₂ Schema.SameType (collect t).schemas (collect u).schemas := by
  have hsorted : (collect t).withSortedFields = (collect u).withSortedFields := by
    rw [← collect_sorted, ← collect_sorted, h.sorted_eq hkeys]
  have hschemas : List.Forall₂ (· = ·) ((collect t).schemas.map Schema.sorted)
      ((collect u).schemas.map Schema.sorted) := by
    rw [List.forall₂_eq_eq_eq]
    exact congrArg schemas hsorted
  rw [List.forall₂_map_left_iff, List.forall₂_map_right_iff] at hschemas
  exact hschemas.imp fun _ _ => Schema.sameType_of_sorted_eq

namespace Generator

variable {σ : Type} [FileSystem σ] {store : σ} {g : Generator}
  {environment : Override.Environment}

theorem Overridden.reordered {t u t' u' : Table} (h : t.Reordered u)
    (ht : g.Overridden environment t t') (hu : g.Overridden environment u u') :
    t'.Reordered u' := by
  cases ht with
  | off hoff =>
      cases hu with
      | off => exact h
      | applied hon =>
          rw [hoff] at hon
          cases hon
  | applied hon happly hnone =>
      cases hu with
      | off hoff =>
          rw [hoff] at hon
          cases hon
      | applied _ happly' hnone' =>
          have hreordered := Override.Source.reordered_apply h (by rwa [happly])
            (by rwa [happly'])
          rwa [happly, happly'] at hreordered

theorem Overridden.keysDistinct {t t' : Table} (h : g.Overridden environment t t')
    (hkeys : t.KeysDistinct) : t'.KeysDistinct := by
  cases h with
  | off => exact hkeys
  | applied _ happly _ =>
      have happlied := Override.Source.keysDistinct_apply hkeys
        ⟨g.variablePrefix, environment⟩ []
      rwa [happly] at happlied

omit [FileSystem σ] in
theorem applyOverrides_eq_ok_iff {t tree : Table} {s : SessionOn σ} :
    (∃ after, outcome (g.applyOverrides environment t) s = (.ok tree, after)) ↔
      g.Overridden environment t tree := by
  obtain ⟨overridden, between, hrun, hoverridden⟩ | ⟨e, between, hrun, hnone⟩ :=
    g.outcome_applyOverrides environment t s
  · constructor
    · rintro ⟨after, h⟩
      cases h.symm.trans hrun
      exact hoverridden
    · intro h
      rw [h.unique hoverridden]
      exact ⟨between, hrun⟩
  · refine iff_of_false ?_ (hnone tree)
    rintro ⟨after, h⟩
    cases h.symm.trans hrun

/-- A source is generated if the overrides apply, all files can be read and emission succeeds. -/
theorem generateTree_eq_ok_iff {t : Table} {s : SessionOn σ} {text : String} :
    (∃ after, outcome (g.generateTree environment t) s = (.ok text, after)) ↔
      ∃ tree loader file last, g.Overridden environment t tree ∧
        outcome (Loader.loadAll s.store (Value.entryReferences tree))
          (.new g.inputDirectory g.limit) = (.ok (), loader) ∧
        outcome (Emitter.emit ⟨g.mode, g.package, g.variablePrefix⟩ s.store tree
          (Catalog.collect tree)) ⟨loader, []⟩ = (.ok file, last) ∧ text = file.text := by
  rw [generateTree_eq]
  constructor
  · rintro ⟨after, h⟩
    obtain ⟨tree, between, happlied, h⟩ := outcome_bind_eq_ok.1 h
    have hstore := (g.keeps_applyOverrides environment t).eq_of_outcome happlied
    obtain ⟨⟨count, loader⟩, _, hloaded, h⟩ := outcome_bind_eq_ok.1 h
    obtain ⟨hload, -, rfl⟩ := g.loadReferences_eq_ok_iff.1 hloaded
    rw [emitLoaded, outcome_bind_of_ok (Action.outcome_report _), outcome_bind_of_ok outcome_get]
      at h
    obtain ⟨file, _, hfile, h⟩ := outcome_bind_eq_ok.1 h
    have hemit := (Action.outcome_fromExcept_eq_ok.1 hfile).1
    obtain ⟨htext, -⟩ := Prod.mk.inj h
    rw [hstore] at hload hemit
    exact ⟨tree, loader, file, _, applyOverrides_eq_ok_iff.1 ⟨between, happlied⟩, hload,
      Prod.ext hemit rfl, (Except.ok.inj htext).symm⟩
  · rintro ⟨tree, loader, file, last, hoverridden, hload, hemit, rfl⟩
    obtain ⟨between, happlied⟩ := applyOverrides_eq_ok_iff (s := s) |>.2 hoverridden
    have hstore : between.store = s.store :=
      (g.keeps_applyOverrides environment t).eq_of_outcome happlied
    rw [← hstore] at hload hemit
    have hloaded : outcome (g.loadReferences tree) between =
        (.ok ((Value.entryReferences tree).length, loader), _) :=
      g.loadReferences_eq_ok_iff.2 ⟨hload, rfl, rfl⟩
    rw [outcome_bind_of_ok happlied, outcome_bind_of_ok hloaded, emitLoaded,
      outcome_bind_of_ok (Action.outcome_report _), outcome_bind_of_ok outcome_get]
    exact ⟨_, outcome_bind_of_ok
      (Action.outcome_fromExcept_eq_ok.2 ⟨congrArg Prod.fst hemit, rfl⟩)⟩

/-- Whenever a source is generated for both of them, with the files in one state, it is the same. -/
def SameSource (g : Generator) (environment : Override.Environment) (store : σ) (t u : Table) :
    Prop :=
  ∀ {s s' after after' : SessionOn σ} {text text' : String}, s.store = store → s'.store = store →
    outcome (g.generateTree environment t) s = (.ok text, after) →
    outcome (g.generateTree environment u) s' = (.ok text', after') → text = text'

theorem sameSource_of_oneContent {t u : Table}
    (hstore : Reference.OneContent store g.inputDirectory g.limit) (hkeys : t.KeysDistinct)
    (h : t.Reordered u) : g.SameSource environment store t u := by
  rintro s s' after after' _ _ rfl hsame ht hu
  obtain ⟨t', one, file, last, hover, hload, hemit, rfl⟩ := generateTree_eq_ok_iff.1 ⟨_, ht⟩
  obtain ⟨u', other, file', last', hover', hload', hemit', rfl⟩ := generateTree_eq_ok_iff.1 ⟨_, hu⟩
  rw [hsame] at hload' hemit'
  have hsorted : t'.sorted = u'.sorted :=
    (hover.reordered h hover').sorted_eq (hover.keysDistinct hkeys)
  -- The runs load their files in different orders, and under different references to one path.
  have hone := (Loader.readFrom_new s.store g.inputDirectory g.limit).loadAll hload
  have hother := (Loader.readFrom_new s.store g.inputDirectory g.limit).loadAll hload'
  have hshared (reference : String) (hreference : reference ∈ Value.entryReferences t'.sorted) :
      Loader.Shares s.store s.store one other reference := by
    have ht' := (Value.entryReferences_sortedTable_perm t').mem_iff.1 hreference
    rw [hsorted] at hreference
    have hu' := (Value.entryReferences_sortedTable_perm u').mem_iff.1 hreference
    obtain ⟨content, hcontent⟩ :=
      Loader.holds_iff.1 ((Loader.extends_of_loadAll hload).2 _ ht')
    obtain ⟨content', hcontent'⟩ :=
      Loader.holds_iff.1 ((Loader.extends_of_loadAll hload').2 _ hu')
    obtain rfl := hone.supplies_eq hstore hother hcontent hcontent'
    exact ⟨content, hcontent, hcontent'⟩
  rw [← Emitter.emit_sorted] at hemit hemit'
  obtain ⟨result, noted, hrun, hrun'⟩ :=
    Emitter.agree_emit ⟨g.mode, g.package, g.variablePrefix⟩ hshared []
  rw [hsorted] at hrun'
  cases hrun.symm.trans hemit
  cases hrun'.symm.trans hemit'
  rfl

section TwoReferences

variable {base : Option Path} {limit : Int} {text other : String} {path path' : Path}
  {content content' : ByteArray}

def twoReferences (text other : String) : Table :=
  [("a", .string text), ("b", .string other)]

def embedded (name : String) (content : ByteArray) : Go.Variable :=
  ⟨name, some (.slice .byte), some (.bytes content.toList)⟩

def embeddedTwice (content : ByteArray) : Go.SourceFile :=
  ⟨"config", [], [.group [embedded "A" content, embedded "B" content]]⟩

def staticGenerator (base : Option Path) (limit : Int) : Generator :=
  ⟨"config", .static, false, base, limit, "CONFIG"⟩

theorem toList_loop (content : ByteArray) (i : Nat) (bytes : List UInt8) :
    ByteArray.toList.loop content i bytes = bytes.reverse ++ content.data.toList.drop i := by
  fun_induction ByteArray.toList.loop content i bytes with
  | case1 i bytes h ih =>
      have hlength : i < content.data.toList.length := by simpa using h
      have hget : content.get! i = content.data.toList[i] := by
        rw [Array.getElem_toList]
        exact getElem!_pos content.data i h
      rw [ih, List.drop_eq_getElem_cons hlength, hget, List.reverse_cons, List.append_assoc]
      rfl
  | case2 i bytes h =>
      have hlength : content.data.toList.length ≤ i := by simpa using Nat.le_of_not_lt h
      rw [List.drop_eq_nil_of_le hlength, List.append_nil]

theorem toList_injective (h : content.toList = content'.toList) : content = content' := by
  rw [ByteArray.toList, ByteArray.toList, toList_loop, toList_loop] at h
  exact ByteArray.ext (Array.toList_inj.1 h)

theorem numbers_embeddedTwice (content : ByteArray) :
    Go.numbers (embeddedTwice content).text.toList = content.toList ++ content.toList := by
  have hend : Go.numbers "\n".toList = [] := Go.numbers_of_not_mem (by decide)
  unfold embeddedTwice embedded Go.SourceFile.text Go.fileText
  simp only [Go.Declaration.text, Go.Variable.text, Go.Literal.text, Go.GoType.text, List.map_cons,
    List.map_nil, List.isEmpty_nil, if_true, Option.map_some, Option.getD_some, String.join,
    List.foldl_cons, List.foldl_nil, String.toList_append, String.toList_intercalate,
    List.append_assoc, List.cons_append, List.nil_append, List.intercalate_cons_cons,
    List.intercalate_singleton]
  -- All other pieces of the source are free of zeros.
  simp (disch := decide +kernel) only [Go.numbers_append_of_not_mem, Go.numbers_bytesText, hend,
    List.append_nil]

/-- The bytes can be read off the source. -/
theorem embeddedTwice_injective (h : (embeddedTwice content).text = (embeddedTwice content').text) :
    content = content' := by
  have htwice : content.toList ++ content.toList = content'.toList ++ content'.toList := by
    rw [← numbers_embeddedTwice, h, numbers_embeddedTwice]
  refine toList_injective (List.append_inj htwice ?_).1
  have hlength := congrArg List.length htwice
  rw [List.length_append, List.length_append] at hlength
  omega

theorem isReference_of_path (h : Reference.path base text = .ok path) : isReference text := by
  by_contra hnone
  rw [Reference.path, Bool.eq_false_of_not_eq_true hnone] at h
  cases h

theorem loadAll_twice (hpath : Reference.path base text = .ok path)
    (hother : Reference.path base other = .ok path')
    (hsame : FileSystem.absolute store path = FileSystem.absolute store path')
    (hread : Reference.resolve store base limit text = .ok content) :
    ∃ loader, outcome (Loader.loadAll store [text, other]) (.new base limit) = (.ok (), loader) ∧
      loader.Supplies store text content ∧ loader.Supplies store other content := by
  have hfirst : outcome (Loader.load store text) (.new base limit) =
      (.ok content, ⟨base, limit, [(FileSystem.absolute store path, content)]⟩) := by
    rw [Loader.outcome_load hpath]
    have hnew : (Loader.new base limit).cache.lookup (FileSystem.absolute store path) = none := rfl
    rw [hnew]
    dsimp only [Loader.new]
    rw [hread]
    rfl
  have hsecond : Loader.Supplies store ⟨base, limit, [(FileSystem.absolute store path, content)]⟩
      other content :=
    ⟨path', hother, by rw [List.lookup_cons, hsame, BEq.rfl]⟩
  refine ⟨_, ?_, (Loader.kept_of_load hfirst).2, hsecond⟩
  rw [Loader.loadAll, outcome_bind_of_ok hfirst, Loader.loadAll,
    outcome_bind_of_ok hsecond.outcome_load]
  rfl

section Embedding

variable {loader : Loader} {tree : Table}

theorem outcome_assignment (key : String) (hreference : isReference text)
    (hheld : loader.Supplies store text content) :
    outcome (Emitter.assignment store key (.string text)) ⟨loader, []⟩ =
      (.ok (embedded (Naming.pascalCase key) content), ⟨loader, []⟩) := by
  have hmeaning : Value.meaning text = .reference := Value.meaning_eq_reference_iff.2 hreference
  have htype : Go.GoType.ofValue (.string text) = .slice .byte := by
    rw [Go.GoType.ofValue, Value.stringKind, hmeaning]
    rfl
  have hfield : Build.field store .root key (.string text) = Build.string store text := by
    rw [Build.field.eq_def]
    exact Build.literal.eq_def store _
  have hstring : outcome (Build.string store text) ⟨loader, []⟩ =
      (.ok (.bytes content.toList), ⟨loader, []⟩) := by
    rw [Build.string, hmeaning]
    exact outcome_bind_of_ok (Build.outcome_load_of_supplies hheld [])
  rw [Emitter.assignment, hfield, outcome_bind_of_ok hstring, htype]
  · rfl
  · intro h
    cases h

theorem collect_eq_empty (hsorted : Table.sortByKey tree = twoReferences text other) :
    Catalog.collect tree = .empty := by
  have hleaf (text : String) : (Value.string text).isLeaf := rfl
  rw [Catalog.collect, Catalog.addEntries_eq_foldl, hsorted]
  simp [twoReferences, Catalog.addValue_of_isLeaf _ _ _ (hleaf _)]

theorem containsDuration_of_isReference (h : isReference text) :
    (Value.string text).containsDuration = false := by
  have hkind : (Value.string text).kind = .bytes := by
    rw [Value.kind, Value.stringKind, Value.meaning_eq_reference_iff.2 h]
  rw [Value.containsDuration.eq_def]
  exact beq_eq_false_iff_ne.2 (by simp [hkind])

theorem emit_twice (hsorted : Table.sortByKey tree = twoReferences text other)
    (htext : isReference text) (hother : isReference other)
    (hheld : loader.Supplies store text content)
    (hheld' : loader.Supplies store other content) :
    outcome (Emitter.emit ⟨.static, "config", "CONFIG"⟩ store tree (Catalog.collect tree))
      ⟨loader, []⟩ = (.ok (embeddedTwice content), ⟨loader, []⟩) := by
  have hduration : Value.entriesContainDuration tree = false := by
    rw [← Value.entriesContainDuration_sortByKey, hsorted, twoReferences,
      Value.entriesContainDuration, Value.entriesContainDuration, Value.entriesContainDuration,
      containsDuration_of_isReference htext, containsDuration_of_isReference hother]
    rfl
  have hvalues : outcome (Emitter.staticValues store tree) ⟨loader, []⟩ =
      (.ok (embeddedTwice content).declarations, ⟨loader, []⟩) := by
    have hb : outcome ([("b", Value.string other)].mapM fun entry =>
        Emitter.assignment store entry.1 entry.2) ⟨loader, []⟩ =
          (.ok [embedded "B" content], ⟨loader, []⟩) :=
      outcome_bind_of_ok (outcome_assignment "b" hother hheld')
    have hmembers : outcome ((twoReferences text other).mapM fun entry =>
        Emitter.assignment store entry.1 entry.2) ⟨loader, []⟩ =
          (.ok [embedded "A" content, embedded "B" content], ⟨loader, []⟩) := by
      rw [twoReferences, List.mapM_cons, outcome_bind_of_ok (outcome_assignment "a" htext hheld),
        outcome_bind_of_ok hb]
      rfl
    rw [Emitter.staticValues, hsorted, outcome_bind_of_ok hmembers]
    rfl
  have hfile : outcome (Emitter.file ⟨.static, "config", "CONFIG"⟩ tree
      (embeddedTwice content).declarations) ⟨loader, []⟩ =
        (.ok (embeddedTwice content), ⟨loader, []⟩) := by
    unfold Emitter.file
    rw [hduration]
    rfl
  rw [Emitter.emit_eq, collect_eq_empty hsorted]
  exact (outcome_bind_of_ok hvalues).trans hfile

theorem generates_twice (hsorted : Table.sortByKey tree = twoReferences text other)
    (htext : isReference text) (hother : isReference other)
    (hload : outcome (Loader.loadAll store (Value.entryReferences tree)) (.new base limit) =
      (.ok (), loader))
    (hheld : loader.Supplies store text content) (hheld' : loader.Supplies store other content) :
    ∃ after, outcome ((staticGenerator base limit).generateTree [] tree) ⟨store, []⟩ =
      (.ok (embeddedTwice content).text, after) :=
  generateTree_eq_ok_iff.2 ⟨tree, loader, embeddedTwice content, _, .off rfl, hload,
    emit_twice hsorted htext hother hheld hheld', rfl⟩

end Embedding

/-- The reference that stands first in the document decides what is read for both. -/
theorem oneContent_of_sameSource
    (h : ∀ (g : Generator) (environment : Override.Environment) (t u : Table),
      g.inputDirectory = base → g.limit = limit → t.KeysDistinct → t.Reordered u →
        g.SameSource environment store t u) : Reference.OneContent store base limit := by
  intro text other path path' content content' hpath hpath' hsame hread hread'
  have hkeys : (twoReferences text other).KeysDistinct := by
    simp [twoReferences, Table.KeysDistinct, Value.KeysDistinct, Value.EntryKeysDistinct,
      Table.keys]
  have hreordered : Table.Reordered (twoReferences text other) (twoReferences text other).reverse :=
    .table (.cons (.refl _) (.cons (.refl _) .nil)) (.swap ..)
  have htext := isReference_of_path hpath
  have hother := isReference_of_path hpath'
  have hforward : Value.entryReferences (twoReferences text other) = [text, other] := by
    simp [twoReferences, Value.entryReferences, Value.references, htext, hother]
  have hbackward : Value.entryReferences (twoReferences text other).reverse = [other, text] := by
    simp [twoReferences, Value.entryReferences, Value.references, htext, hother]
  have hsorted : Table.sortByKey (twoReferences text other) = twoReferences text other := by
    simp [Table.sortByKey, Sorting.sort, Sorting.insert, twoReferences, Table.keyLe]
  have hreversed :
      Table.sortByKey (twoReferences text other).reverse = twoReferences text other := by
    simp [Table.sortByKey, Sorting.sort, Sorting.insert, twoReferences, Table.keyLe]
  -- Of the two orders one reads the file under the first reference, the other under the second.
  obtain ⟨loader, hload, hheld, hheld'⟩ := loadAll_twice hpath hpath' hsame hread
  obtain ⟨after, ht⟩ := generates_twice hsorted htext hother (by rwa [hforward]) hheld hheld'
  obtain ⟨loader', hload', hsecond, hfirst⟩ := loadAll_twice hpath' hpath hsame.symm hread'
  obtain ⟨after', hu⟩ : ∃ after', outcome ((staticGenerator base limit).generateTree []
      (twoReferences text other).reverse) ⟨store, []⟩ =
        (.ok (embeddedTwice content').text, after') :=
    generates_twice hreversed htext hother (by rwa [hbackward]) hfirst hsecond
  exact embeddedTwice_injective (h _ [] _ _ rfl rfl hkeys hreordered rfl rfl ht hu)

end TwoReferences

/-- Of configurations that differ in the order of their keys only, the record types are the same. So
are the sources that are generated for them, in a file system where references to one absolute path
are never resolved to different contents, and in no other. In a store they never are. -/
theorem same_source_iff_oneContent (store : σ) (base : Option Path) (limit : Int) :
    (∀ t u : Table, t.KeysDistinct → t.Reordered u →
      List.Forall₂ Schema.SameType (Catalog.collect t).schemas (Catalog.collect u).schemas) ∧
    ((∀ (g : Generator) (environment : Override.Environment) (t u : Table),
      g.inputDirectory = base → g.limit = limit → t.KeysDistinct → t.Reordered u →
        g.SameSource environment store t u) ↔ Reference.OneContent store base limit) ∧
    ∀ store : FileStore, store.Rooted → Reference.OneContent store base limit := by
  refine ⟨fun t u => Catalog.sameTypes_of_reordered, ⟨oneContent_of_sameSource, ?_⟩,
    fun store hstore => FileStore.oneContent hstore base limit⟩
  rintro hstore g environment t u rfl rfl hkeys h
  exact sameSource_of_oneContent hstore hkeys h

def listener : Table :=
  [("tls", .table [("on", .boolean false), ("cert", .string "file:a")]), ("debug", .boolean true)]

def reorderedListener : Table :=
  [("debug", .boolean true), ("tls", .table [("cert", .string "file:a"), ("on", .boolean false)])]

theorem listener_reordered : listener.Reordered reorderedListener :=
  have htls := .table (.cons (.refl _) (.cons (.refl _) .nil)) (.swap ..)
  .table (.cons htls (.cons (.refl _) .nil)) (.swap ..)

def listenerContent : ByteArray :=
  ⟨#[7]⟩

def listenerStore : FileStore :=
  ⟨[(["a"], ⟨1, listenerContent⟩)], [], [], 2⟩

def listenerGenerator : Generator :=
  ⟨"config", .static, true, none, 0, "CONFIG"⟩

def listenerLoader : Loader :=
  ⟨none, 0, [(⟨.slash, ["a"]⟩, listenerContent)]⟩

def listenerFile : Go.SourceFile :=
  ⟨"config", [], [.record "TlsConfig" [⟨"Cert", .slice .byte⟩, ⟨"On", .bool⟩], .group [
    ⟨"Debug", some .bool, some (.boolean false)⟩,
    ⟨"Tls", none, some (.record (some "TlsConfig")
      [("Cert", .bytes listenerContent.toList), ("On", .boolean true)])⟩]]⟩

def overriddenListener : Table :=
  [("tls", .table [("on", .boolean true), ("cert", .string "file:a")]), ("debug", .boolean false)]

def reorderedOverridden : Table :=
  [("debug", .boolean false), ("tls", .table [("cert", .string "file:a"), ("on", .boolean true)])]

def listenerEnvironment : Override.Environment :=
  [("CONFIG_DEBUG", "false"), ("CONFIG_TLS_ON", "true")]

theorem emit_listener :
    outcome (Emitter.emit ⟨.static, "config", "CONFIG"⟩ listenerStore overriddenListener
      (Catalog.collect overriddenListener)) ⟨listenerLoader, []⟩ =
        (.ok listenerFile, ⟨listenerLoader, []⟩) := by
  have hcert (scope : Scope) : Build.field listenerStore scope "cert" (.string "file:a") =
      Build.string listenerStore "file:a" := by
    rw [Build.field.eq_def]
    exact Build.literal.eq_def listenerStore _
  have hfields : Table.sortByKey [("on", Value.boolean true), ("cert", .string "file:a")] =
    [("cert", .string "file:a"), ("on", .boolean true)] := rfl
  have htls : Build.field listenerStore .root "tls"
      (.table [("on", .boolean true), ("cert", .string "file:a")]) = do
        let cert ← Build.string listenerStore "file:a"
        return .record (some "TlsConfig") [("Cert", cert), ("On", .boolean true)] := by
    rw [Build.field_table, Build.fields_eq_mapM, hfields]
    simp only [List.mapM_cons, List.mapM_nil, Build.namedField, hcert, Build.field_boolean,
      bind_assoc, pure_bind]
    rfl
  have hsorted : Table.sortByKey overriddenListener = [("debug", .boolean false),
    ("tls", .table [("on", .boolean true), ("cert", .string "file:a")])] := rfl
  have hread : outcome (Build.string listenerStore "file:a") ⟨listenerLoader, []⟩ =
      (.ok (.bytes listenerContent.toList), ⟨listenerLoader, []⟩) := rfl
  rw [Emitter.emit]
  simp only [Emitter.staticValues, hsorted, List.mapM_cons, List.mapM_nil, Emitter.assignment,
    Build.field_boolean, htls, bind_assoc, pure_bind]
  rw [outcome_bind_of_ok hread]
  rfl

theorem same_source_iff_oneContent_listener :
    listener.KeysDistinct ∧ listener.Reordered reorderedListener ∧
      List.Forall₂ Schema.SameType (Catalog.collect listener).schemas
        (Catalog.collect reorderedListener).schemas ∧
      ∃ after after',
        outcome (listenerGenerator.generateTree listenerEnvironment listener)
          ⟨listenerStore, []⟩ = (.ok listenerFile.text, after) ∧
        outcome (listenerGenerator.generateTree listenerEnvironment reorderedListener)
          ⟨listenerStore, []⟩ = (.ok listenerFile.text, after') := by
  have hkeys : listener.KeysDistinct := by decide
  obtain ⟨hcatalog, hsources, hstores⟩ := same_source_iff_oneContent listenerStore none 0
  have hrooted : listenerStore.Rooted := nofun
  have hsame : listenerGenerator.SameSource listenerEnvironment listenerStore listener
      reorderedListener :=
    hsources.2 (hstores _ hrooted) _ _ _ _ rfl rfl hkeys listener_reordered
  have happly : (⟨"CONFIG", listenerEnvironment⟩ : Override.Source).apply [] listener =
    (overriddenListener, ⟨["CONFIG_TLS_ON", "CONFIG_DEBUG"], [], none⟩) := rfl
  have happly' : (⟨"CONFIG", listenerEnvironment⟩ : Override.Source).apply [] reorderedListener =
    (reorderedOverridden, ⟨["CONFIG_DEBUG", "CONFIG_TLS_ON"], [], none⟩) := rfl
  obtain ⟨after, ht⟩ : ∃ after,
      outcome (listenerGenerator.generateTree listenerEnvironment listener) ⟨listenerStore, []⟩ =
        (.ok listenerFile.text, after) :=
    generateTree_eq_ok_iff.2
      ⟨overriddenListener, listenerLoader, _, _, .applied rfl happly rfl, rfl, emit_listener, rfl⟩
  -- Nothing but the order of the keys is different.
  have hsorted : overriddenListener.sorted = reorderedOverridden.sorted := rfl
  have hemit := emit_listener
  rw [← Emitter.emit_sorted, hsorted, Emitter.emit_sorted] at hemit
  obtain ⟨text, after', hu⟩ : ∃ text after', outcome
      (listenerGenerator.generateTree listenerEnvironment reorderedListener) ⟨listenerStore, []⟩ =
        (.ok text, after') :=
    ⟨_, generateTree_eq_ok_iff.2 ⟨reorderedOverridden, listenerLoader, _, _,
      .applied rfl happly' rfl, rfl, hemit, rfl⟩⟩
  obtain rfl := hsame rfl rfl ht hu
  exact ⟨hkeys, listener_reordered, hcatalog _ _ hkeys listener_reordered, after, after', ht, hu⟩

def detour : LinkedStore :=
  ⟨⟨[(["x"], ⟨1, ⟨#[1]⟩⟩), (["far", "x"], ⟨2, ⟨#[2]⟩⟩)], [["far"], ["far", "deep"]], [], 3⟩,
    [(["link"], ["far", "deep"])]⟩

/-- With `a = "file:link/../x"` and `b = "file:x"` both are the file that stands first. -/
theorem not_all_same_source : ¬ ∀ (store : LinkedStore) (g : Generator)
    (environment : Override.Environment) (t u : Table), t.KeysDistinct → t.Reordered u →
      g.SameSource environment store t u := by
  intro h
  have hone : Reference.OneContent detour none 0 :=
    oneContent_of_sameSource fun g environment t u _ _ => h detour g environment t u
  have hpath : Reference.path none "file:link/../x" = .ok ⟨.none, ["link", "..", "x"]⟩ := rfl
  have hpath' : Reference.path none "file:x" = .ok ⟨.none, ["x"]⟩ := rfl
  have hsame : FileSystem.absolute detour ⟨.none, ["link", "..", "x"]⟩ =
      FileSystem.absolute detour ⟨.none, ["x"]⟩ := rfl
  have hread : Reference.resolve detour none 0 "file:link/../x" = .ok ⟨#[2]⟩ :=
    (Loader.resolve_eq_ok_iff_content hpath).2 ⟨1, rfl, by decide, rfl⟩
  have hread' : Reference.resolve detour none 0 "file:x" = .ok ⟨#[1]⟩ :=
    (Loader.resolve_eq_ok_iff_content hpath').2 ⟨1, rfl, by decide, rfl⟩
  have hbytes := hone _ _ _ _ _ _ hpath hpath' hsame hread hread'
  exact absurd (congrArg ByteArray.data hbytes) (by decide)

end Generator

end TypedConfig
