import TypedConfig.Proofs.Emission.Agreement
import TypedConfig.Proofs.Emission.Leaves
import TypedConfig.Generation.Generator

/-!
The files whose bytes an emitted source holds. They are those that were read when the configuration
was validated, whatever has become of them since (`Emitter.emit_of_validated`).
-/

namespace TypedConfig

open Go (Declaration Literal SourceFile)

namespace Go

def Literal.blobs (l : Literal) : List (List UInt8) :=
  l.leaves.filterMap Literal.blob?

def Variable.blobs (v : Variable) : List (List UInt8) :=
  (v.value.map Literal.blobs).getD []

def Declaration.blobs : Declaration → List (List UInt8)
  | .accessor a => (a.fallback.map Literal.blobs).getD []
  | .group members => members.flatMap Variable.blobs
  | .record .. | .placeholder _ => []

def SourceFile.blobs (f : SourceFile) : List (List UInt8) :=
  f.declarations.flatMap Declaration.blobs

end Go

namespace Build

variable {σ : Type} [FileSystem σ] {α β : Type} {store : σ} {before after : Progress}

theorem carries_mapM {f : α → Build β} {texts : α → List String} {blobs : β → List (List UInt8)}
    (hf : ∀ x {before y after}, Yields (f x) before y after →
      Carries store before after (texts x) (blobs y)) :
    ∀ {xs : List α} {before ys after}, Yields (xs.mapM f) before ys after →
      Carries store before after (xs.flatMap texts) (ys.flatMap blobs)
  | [], before, ys, after, h => by
      rw [List.mapM_nil] at h
      obtain ⟨rfl, rfl⟩ := (yields_pure _ _).1 h
      exact carries_nothing rfl
  | x :: xs, before, ys, after, h => by
      rw [List.mapM_cons] at h
      simp only [yields_bind, yields_pure] at h
      obtain ⟨y, _, hy, ys, _, hys, rfl, rfl⟩ := h
      rw [List.flatMap_cons, List.flatMap_cons]
      exact (hf x hy).append (carries_mapM hf hys)

end Build

namespace Emitter

open Build (Yields Carries Embeds)

variable {σ : Type} [FileSystem σ] {store : σ} {before after : Progress}

def valueEmbedded (v : Value) : List String :=
  Value.embedded v.sorted.embeddings

def accessorEmbedded (v : Value) : List String :=
  if v.isTable then [] else valueEmbedded v

def methodsEmbedded (s : Schema) : List String :=
  if s.inArray then [] else s.sortedFields.flatMap fun field => accessorEmbedded field.2

/-- The references whose files an emitted file embeds, in the order of the keys. -/
def embeddedReferences (mode : Mode) (tree : Table) (catalog : Catalog) : List String :=
  match mode with
  | .static => (Table.sortByKey tree).flatMap fun entry => valueEmbedded entry.2
  | .getter =>
    catalog.sorted.flatMap methodsEmbedded ++
      ((Table.sortByKey tree).filter (!·.2.isTable)).flatMap fun entry => accessorEmbedded entry.2

theorem mem_references_of_valueEmbedded {v : Value} {reference : String}
    (h : reference ∈ valueEmbedded v) : reference ∈ v.references :=
  (Value.references_sorted_perm v).mem_iff.1 (Value.mem_of_embedded h)

theorem mem_references_of_accessorEmbedded {v : Value} {reference : String}
    (h : reference ∈ accessorEmbedded v) : reference ∈ v.references := by
  unfold accessorEmbedded at h
  split at h
  · cases h
  · exact mem_references_of_valueEmbedded h

theorem mem_embeddedReferences {mode : Mode} {tree : Table} {reference : String}
    (h : reference ∈ embeddedReferences mode tree (Catalog.collect tree)) :
    reference ∈ Value.entryReferences tree := by
  cases mode with
  | static =>
      obtain ⟨entry, hentry, hembedded⟩ := List.mem_flatMap.1 h
      exact Value.mem_entryReferences (Table.mem_sortByKey.1 hentry)
        (mem_references_of_valueEmbedded hembedded)
  | getter =>
      obtain h | h := List.mem_append.1 h
      · obtain ⟨s, hs, h⟩ := List.mem_flatMap.1 h
        unfold methodsEmbedded at h
        split at h
        · cases h
        · obtain ⟨field, hfield, hembedded⟩ := List.mem_flatMap.1 h
          refine (Catalog.mem_collect (Catalog.mem_sorted.1 hs)).mem_entryReferences ?_
          exact Value.mem_entryReferences (Schema.mem_sortedFields.1 hfield)
            (mem_references_of_accessorEmbedded hembedded)
      · obtain ⟨entry, hentry, hembedded⟩ := List.mem_flatMap.1 h
        exact Value.mem_entryReferences (Table.mem_sortByKey.1 (List.mem_filter.1 hentry).1)
          (mem_references_of_accessorEmbedded hembedded)

theorem carries_assignment {key : String} {v : Value} {member : Go.Variable}
    (h : Yields (assignment store key v) before member after) :
    Carries store before after (valueEmbedded v) member.blobs := by
  have hblobs : member.blobs = member.leaves.filterMap Literal.blob? := by
    rw [Go.Variable.blobs, Go.Variable.leaves]
    cases member.value <;> rfl
  rw [hblobs]
  exact (transcribes_assignment h).toCarries

theorem carries_accessor {e : Emitter} {scope : Scope} {key : String} {v : Value}
    {d : Declaration} (h : Yields (e.accessor store scope key v) before d after) :
    Carries store before after (accessorEmbedded v) d.blobs := by
  rw [accessor_eq] at h
  simp only [Build.yields_bind, Build.yields_pure] at h
  obtain ⟨_, between, hfallback, _, last, hrequire, rfl, rfl⟩ := h
  have hloader : last.loader = between.loader := by rw [Build.eq_of_requireAll hrequire]
  unfold fallback at hfallback
  unfold accessorEmbedded
  split at hfallback
  · next htable =>
    obtain ⟨rfl, rfl⟩ := (Build.yields_pure _ _).1 hfallback
    rw [if_pos htable]
    exact Build.carries_nothing hloader
  · next htable =>
    obtain ⟨l, hl, rfl⟩ := (Build.yields_map _ _ _).1 hfallback
    rw [if_neg htable]
    have hfield := (Build.transcribes_field key v hl).toCarries
    rw [← List.append_nil (valueEmbedded _), ← List.append_nil (Declaration.blobs _)]
    exact hfield.append (Build.carries_nothing hloader)

theorem carries_methods {e : Emitter} {s : Schema} {ds : List Declaration}
    (h : Yields (e.methods store s) before ds after) :
    Carries store before after (methodsEmbedded s) (ds.flatMap Declaration.blobs) := by
  unfold methods at h
  unfold methodsEmbedded
  split at h
  · next harray =>
    obtain ⟨rfl, rfl⟩ := (Build.yields_pure _ _).1 h
    rw [if_pos harray]
    exact Build.carries_nothing rfl
  · next harray =>
    rw [if_neg harray]
    exact Build.carries_mapM (fun _ _ _ _ => carries_accessor) h

theorem blobs_types (mode : Mode) (schemas : List Schema) :
    (schemas.map (typeDeclaration mode)).flatMap Declaration.blobs = [] := by
  rw [List.flatMap_map, List.flatMap_eq_nil_iff]
  intro s _
  unfold typeDeclaration
  cases mode with
  | static => rfl
  | getter => cases s.inArray <;> rfl

/-- Variables without values hold no bytes. -/
theorem blobs_of_instances {members : List Go.Variable} (h : ∀ m ∈ members, m.value = none) :
    (if members.isEmpty then [] else [Declaration.group members]).flatMap Declaration.blobs =
      [] := by
  split
  · rfl
  · rw [List.flatMap_singleton, Declaration.blobs, List.flatMap_eq_nil_iff]
    intro m hm
    rw [Go.Variable.blobs, h m hm]
    rfl

theorem carries_emit {e : Emitter} {tree : Table} {catalog : Catalog} {f : SourceFile}
    (h : Yields (e.emit store tree catalog) before f after) :
    Carries store before after (embeddedReferences e.mode tree catalog) f.blobs := by
  obtain ⟨methods, values, between, last, hmethods, hvalues, hloader, hds⟩ := parts_of_emit h
  rw [SourceFile.blobs, hds, List.flatMap_append, List.flatMap_append, blobs_types,
    List.nil_append]
  unfold methodsOfAll at hmethods
  unfold Emitter.values at hvalues
  unfold embeddedReferences
  have hlast {texts : List String} {blobs : List (List UInt8)}
      (h : Carries store before last texts blobs) : Carries store before after texts blobs :=
    ⟨hloader ▸ h.loader, hloader ▸ h.embedded⟩
  refine hlast ?_
  cases hmode : e.mode with
  | static =>
      simp only [hmode, staticValues, Build.yields_bind, Build.yields_pure] at hmethods hvalues
      obtain ⟨rfl, rfl⟩ := hmethods
      obtain ⟨members, _, hmembers, rfl, rfl⟩ := hvalues
      rw [List.flatten_nil, List.flatMap_nil, List.nil_append, List.flatMap_singleton]
      exact Build.carries_mapM (fun _ _ _ _ => carries_assignment) hmembers
  | getter =>
      simp only [hmode] at hmethods hvalues
      have hmethods : Carries store before between (catalog.sorted.flatMap methodsEmbedded)
          (methods.flatten.flatMap Declaration.blobs) := by
        rw [← List.flatMap_id, List.flatMap_assoc]
        exact Build.carries_mapM (fun _ _ _ _ => carries_methods) hmethods
      refine hmethods.append ?_
      simp only [getterValues, Build.yields_bind, Build.yields_pure] at hvalues
      obtain ⟨accessors, _, haccessors, rfl, rfl⟩ := hvalues
      rw [List.flatMap_append, blobs_of_instances, List.append_nil]
      · exact Build.carries_mapM (fun _ _ _ _ => carries_accessor) haccessors
      · intro m hm
        obtain ⟨entry, -, rfl⟩ := List.mem_map.1 hm
        rfl

/-- After a configuration has been validated, emission looks at no file any more: whatever the files
are by then, it ends in one way, which is no failure to read a file. The bytes that it writes are
those that validation has read. -/
theorem emit_of_validated (e : Emitter) {store : FileStore} {tree : Table}
    {loader loaded : Loader} {count : Nat}
    (h : outcome (Loader.validateEntries store tree) loader = (.ok count, loaded)) :
    ∃ contents, outcome ((Value.entryReferences tree).mapM (Loader.load store)) loader =
        (.ok contents, loaded) ∧
      ∃ result noted,
        (∀ changed : FileStore, changed.workingDirectory = store.workingDirectory →
          outcome (e.emit changed tree (Catalog.collect tree)) ⟨loaded, []⟩ =
            (result, ⟨loaded, noted⟩)) ∧
        (∀ error, result ≠ .error (.reference error)) ∧
        ∀ f, result = .ok f → List.Forall₂ (fun reference data =>
            reference ∈ Value.entryReferences tree ∧
              ∀ content, (reference, content) ∈ (Value.entryReferences tree).zip contents →
                content.toList = data)
          (embeddedReferences e.mode tree (Catalog.collect tree)) f.blobs := by
  obtain ⟨contents, hcontents⟩ := Loader.outcome_mapM_of_validated h
  have hheld := Loader.holds_of_mapM hcontents
  have hshared (changed : FileStore)
      (hdirectory : changed.workingDirectory = store.workingDirectory) :
      ∀ reference ∈ Value.entryReferences tree,
        Loader.Shares store changed loaded loaded reference := by
    intro reference hreference
    obtain ⟨content, hcontent⟩ := Loader.holds_iff.1 (hheld reference hreference)
    exact ⟨content, hcontent, hcontent.of_workingDirectory hdirectory⟩
  -- The run over the files as they were read stands for all others.
  obtain ⟨result, noted, hrun, -⟩ := e.agree_emit (hshared store rfl) []
  refine ⟨contents, hcontents, result, noted, ?_, ?_, ?_⟩
  · intro changed hdirectory
    obtain ⟨result', noted', hsame, hchanged⟩ := e.agree_emit (hshared changed hdirectory) []
    rw [hrun] at hsame
    cases hsame
    exact hchanged
  · rintro error rfl
    obtain ⟨-, ⟨⟨f, hok⟩, -⟩ | ⟨hnumber, -⟩⟩ := e.writes_emit hheld ⟨loaded, []⟩ rfl
    · rw [hrun] at hok
      cases hok
    · rw [hrun] at hnumber
      cases hnumber
  · rintro f rfl
    have hcarries : Carries store ⟨loaded, []⟩ ⟨loaded, noted⟩ _ f.blobs := carries_emit hrun
    refine (List.forall₂_and_left _ _).2 ⟨fun _ => mem_embeddedReferences, ?_⟩
    refine hcarries.embedded.imp fun reference data hembeds content hmem => ?_
    obtain ⟨_, hsupplies, rfl⟩ := hembeds
    have hread := List.forall₂_zip (Loader.supplies_of_mapM hcontents).2 hmem
    rw [hread.unique hsupplies]

def certificates : Table :=
  [("names", .array [.string "a", .string "file:a"]), ("cert", .string "file:a")]

def certificate : ByteArray :=
  ⟨#[7, 8]⟩

def certificateStore : FileStore :=
  ⟨[(["a"], ⟨1, certificate⟩)], [], [], 2⟩

def certificateLoader : Loader :=
  ⟨none, 0, [(⟨.slash, ["a"]⟩, certificate)]⟩

theorem validate_certificates : outcome (Loader.validateEntries certificateStore certificates)
    (.new none 0) = (.ok 2, certificateLoader) := by
  rfl

def certificatesFile : SourceFile :=
  ⟨"config", [], [.group [⟨"Cert", some (.slice .byte), some (.bytes certificate.toList)⟩,
    ⟨"Names", some (.slice .string), some (.slice .string [.string "a", .string "file:a"])⟩]]⟩

/-- An array that starts with a plain string keeps the string after it. -/
theorem field_keptString {σ : Type} [FileSystem σ] (store : σ) (key first second : String)
    (h : Value.stringKind first = .string) :
    Build.field store .root key (.array [.string first, .string second]) =
      pure (.slice .string [.string first, .string second]) := by
  have hkeeps : (Value.string first).kind == .string := by simp [Value.kind, h]
  have htype : Go.GoType.ofValue (.string first) = .string := by
    simp [Go.GoType.ofValue, Go.GoType.ofStringKind, h]
  rw [Build.field.eq_def]
  simp [Value.isTableArray, Build.literal_cons, Build.element, Build.elements, Value.isTable,
    hkeeps, htype]

theorem yields_certificates :
    Yields (emit ⟨.static, "config", "CONFIG"⟩ certificateStore certificates
      (Catalog.collect certificates)) ⟨certificateLoader, []⟩ certificatesFile
      ⟨certificateLoader, []⟩ := by
  have hcert : Build.field certificateStore .root "cert" (.string "file:a") =
      Build.string certificateStore "file:a" := by
    rw [Build.field.eq_def]
    exact Build.literal.eq_def certificateStore _
  have hsorted : Table.sortByKey certificates = [("cert", .string "file:a"),
    ("names", .array [.string "a", .string "file:a"])] := rfl
  have hnames := field_keptString certificateStore "names" "a" "file:a" rfl
  rw [emit]
  simp only [staticValues, hsorted, List.mapM_cons, List.mapM_nil, assignment, hcert, hnames]
  rfl

/-- The bytes of the certificate are written once, as validation has read them. -/
theorem emit_of_validated_certificates :
    outcome (Loader.validateEntries certificateStore certificates) (.new none 0) =
        (.ok 2, certificateLoader) ∧
      embeddedReferences .static certificates (Catalog.collect certificates) = ["file:a"] ∧
      ∃ contents, outcome ((Value.entryReferences certificates).mapM
          (Loader.load certificateStore)) (.new none 0) = (.ok contents, certificateLoader) ∧
        (∀ changed : FileStore, changed.workingDirectory = [] →
          outcome (emit ⟨.static, "config", "CONFIG"⟩ changed certificates
            (Catalog.collect certificates)) ⟨certificateLoader, []⟩ =
              (.ok certificatesFile, ⟨certificateLoader, []⟩)) ∧
        List.Forall₂ (fun reference data => reference ∈ Value.entryReferences certificates ∧
            ∀ content, (reference, content) ∈ (Value.entryReferences certificates).zip contents →
              content.toList = data) ["file:a"] certificatesFile.blobs := by
  obtain ⟨contents, hread, result, noted, hrun, -, hblobs⟩ :=
    emit_of_validated ⟨.static, "config", "CONFIG"⟩ validate_certificates
  have hfile : (.ok certificatesFile, _) = (result, _) :=
    yields_certificates.symm.trans (hrun certificateStore rfl)
  cases hfile
  exact ⟨validate_certificates, rfl, contents, hread, hrun, hblobs _ rfl⟩

/-- Validation resolves every reference of a configuration, in the order of the document and up to
the first that fails. Of these, the bytes of exactly those marked as embedded are written, one for
one in the order of the keys. -/
theorem embedded_of_validated {package variablePrefix : String} {tree : Table}
    {loader loaded : Loader} {count : Nat} {f : SourceFile}
    (hvalid : outcome (Loader.validateEntries store tree) loader = (.ok count, loaded))
    (h : Yields (emit ⟨.static, package, variablePrefix⟩ store tree (Catalog.collect tree))
      ⟨loaded, []⟩ f after) :
    Loader.validateEntries store tree =
        List.length <$> (Value.entryReferences tree).mapM (Loader.load store) ∧
      (Value.entryReferences tree.sorted).Perm (Value.entryReferences tree) ∧
      (Value.entryEmbeddings tree.sorted).map Prod.fst = Value.entryReferences tree.sorted ∧
      List.Forall₂ (Embeds store loaded) (Value.embedded (Value.entryEmbeddings tree.sorted))
        f.blobs := by
  refine ⟨Loader.validateEntries_eq_mapM tree, Value.entryReferences_sortedTable_perm tree,
    Value.map_fst_entryEmbeddings _, ?_⟩
  obtain ⟨contents, hcontents⟩ := Loader.outcome_mapM_of_validated hvalid
  have hkept := (writes_emit (Loader.holds_of_mapM hcontents)
    ⟨.static, package, variablePrefix⟩ ⟨loaded, []⟩ rfl).1
  have hrun : outcome (emit ⟨.static, package, variablePrefix⟩ store tree (Catalog.collect tree))
    ⟨loaded, []⟩ = (.ok f, after) := h
  rw [hrun] at hkept
  rw [← hkept, Table.sorted_eq_map, Value.embedded_entryEmbeddings, List.flatMap_map]
  exact (carries_emit h).embedded

/-- Both references are read, but the bytes are written once. -/
theorem embedded_of_validated_certificates :
    outcome (Loader.validateEntries certificateStore certificates) (.new none 0) =
        (.ok 2, certificateLoader) ∧
      Yields (emit ⟨.static, "config", "CONFIG"⟩ certificateStore certificates
        (Catalog.collect certificates)) ⟨certificateLoader, []⟩ certificatesFile
        ⟨certificateLoader, []⟩ ∧
      Value.entryEmbeddings certificates.sorted = [("file:a", true), ("file:a", false)] ∧
      List.Forall₂ (Embeds certificateStore certificateLoader) ["file:a"] certificatesFile.blobs :=
  ⟨validate_certificates, yields_certificates, rfl,
    (embedded_of_validated validate_certificates yields_certificates).2.2.2⟩

def keptReference : Table :=
  [("x", .array [.string "a", .string "file:missing"])]

def keptReferenceFile : SourceFile :=
  ⟨"config", [], [.group [
    ⟨"X", some (.slice .string), some (.slice .string [.string "a", .string "file:missing"])⟩]]⟩

theorem yields_keptReference (store : FileStore) (loader : Loader) :
    Yields (emit ⟨.static, "config", "CONFIG"⟩ store keptReference (Catalog.collect keptReference))
      ⟨loader, []⟩ keptReferenceFile ⟨loader, []⟩ := by
  have hnames := field_keptString store "x" "a" "file:missing" rfl
  have hsorted : Table.sortByKey keptReference =
      [("x", .array [.string "a", .string "file:missing"])] := rfl
  rw [emit]
  simp only [staticValues, hsorted, List.mapM_cons, List.mapM_nil, assignment, hnames]
  rfl

/-- More is read than is embedded, and so a configuration can fail for a string that would be kept
as it is. -/
theorem not_only_embedded_validated :
    (¬ ∀ (store : FileStore) (tree : Table) (loader : Loader) (f : SourceFile) (after : Progress),
      Yields (emit ⟨.static, "config", "CONFIG"⟩ store tree (Catalog.collect tree)) ⟨loader, []⟩
        f after →
      ∀ reference, reference ∈ Value.entryReferences tree ↔
        ∃ data ∈ f.blobs, Embeds store after.loader reference data) ∧
    ¬ ∀ (g : Generator) (s : Session) (tree : Table) (f : SourceFile) (after : Progress),
      g.mode = .static → Yields (emit ⟨g.mode, g.package, g.variablePrefix⟩ s.store tree
        (Catalog.collect tree)) ⟨.new g.inputDirectory g.limit, []⟩ f after →
      ∀ error, (outcome (g.generateTree [] tree) s).1 ≠ .error (.reference error) := by
  constructor
  · intro h
    have hmem := (h (⟨[], [], [], 0⟩ : FileStore) _ ⟨none, 0, []⟩ _ _ (yields_keptReference _ _)
      "file:missing").1 (List.mem_singleton_self _)
    obtain ⟨data, hdata, -⟩ := hmem
    cases hdata
  · intro h
    exact h ⟨"config", .static, false, none, 0, "CONFIG"⟩ ⟨⟨[], [], [], 0⟩, []⟩ keptReference _ _
      rfl (yields_keptReference _ _) (.notFound ⟨.none, ["missing"]⟩) rfl

end Emitter

end TypedConfig
