import TypedConfig.Proofs.Emission.Int64
import TypedConfig.Proofs.Generation.KeyOrder
import TypedConfig.Proofs.Override.Pass

namespace TypedConfig

open Go (IsInt64 SourceFile)

namespace Override

variable {text : String} {v w : Value} {n : Int}

theorem isInt64_of_parseInt (h : parseInt text = .ok n) : IsInt64 n := by
  unfold parseInt at h
  rcases Decimal.splitSign text.toList with ⟨negative, digits⟩
  dsimp only at h
  split at h
  · cases h
  · obtain ⟨_, -, h⟩ := except_bind_eq_ok_iff.1 h
    split at h
    · cases h
    · next hrange =>
      cases h
      obtain ⟨hleast, hgreatest⟩ := not_or.1 hrange
      exact ⟨Int.not_lt.1 hleast, Int.not_lt.1 hgreatest⟩

theorem isInt64_of_convert (h : convert text v = .ok w) (hn : .integer n ∈ w.leaves) :
    IsInt64 n := by
  unfold convert at h
  split at h
  · obtain ⟨b, -, rfl⟩ := exists_of_map_eq_ok h
    cases List.mem_singleton.1 hn
  · obtain ⟨m, hm, rfl⟩ := exists_of_map_eq_ok h
    cases List.mem_singleton.1 hn
    exact isInt64_of_parseInt hm
  · obtain ⟨x, -, rfl⟩ := exists_of_map_eq_ok h
    cases List.mem_singleton.1 hn
  · cases h
    cases List.mem_singleton.1 hn

theorem isInt64_of_replaces (h : Replaces text v w) (hn : .integer n ∈ w.leaves) : IsInt64 n := by
  cases h with
  | scalar _ h => exact isInt64_of_convert h hn
  | array h =>
      rw [Value.leaves, Value.itemLeaves_eq_flatMap] at hn
      obtain ⟨item, hitem, hn⟩ := List.mem_flatMap.1 hn
      obtain ⟨part, hpart⟩ := exists_of_mem_convertArray h item hitem
      exact isInt64_of_convert hpart hn

/-- Kept as it is, or replaced by what has no integer out of range. -/
def KeptOrInt64 (v w : Value) : Prop :=
  w = v ∨ ∀ n, .integer n ∈ w.leaves → IsInt64 n

theorem allows_keptOrInt64 : Source.Allows KeptOrInt64 where
  kept _ _ := .inl rfl
  replaced _ _ _ _ h := .inr fun _ => isInt64_of_replaces (Source.replaces_of_replaceLeaf h)

end Override

section Alike

variable {n : Int}

mutual

theorem Value.Alike.isInt64_or_mem_leaves : ∀ {v w : Value}, v.Alike Override.KeptOrInt64 w →
    .integer n ∈ w.leaves → IsInt64 n ∨ .integer n ∈ v.leaves
  | _, _, .leaf _ _ h, hn => by
      obtain rfl | h := h
      · exact .inr hn
      · exact .inl (h n hn)
  | _, _, .table h, hn => h.isInt64_or_mem_leaves hn
  | _, _, .tables h hrest, hn => by
      obtain hn | hn := List.mem_append.1 hn
      · exact (h.isInt64_or_mem_leaves hn).imp_right (List.mem_append_left _)
      · exact (hrest.isInt64_or_mem_leaves hn).imp_right (List.mem_append_right _)

theorem EntriesAlike.isInt64_or_mem_leaves : ∀ {es fs : Table},
    EntriesAlike Override.KeptOrInt64 es fs → .integer n ∈ Value.entryLeaves fs →
      IsInt64 n ∨ .integer n ∈ Value.entryLeaves es
  | _, _, .nil, hn => by cases hn
  | _, _, .cons h hrest, hn => by
      obtain hn | hn := List.mem_append.1 hn
      · exact (h.isInt64_or_mem_leaves hn).imp_right (List.mem_append_left _)
      · exact (hrest.isInt64_or_mem_leaves hn).imp_right (List.mem_append_right _)

theorem ItemsAlike.isInt64_or_mem_leaves : ∀ {vs ws : List Value},
    ItemsAlike Override.KeptOrInt64 vs ws → .integer n ∈ Value.itemLeaves ws →
      IsInt64 n ∨ .integer n ∈ Value.itemLeaves vs
  | _, _, .nil, hn => by cases hn
  | _, _, .table h hrest, hn => by
      obtain hn | hn := List.mem_append.1 hn
      · exact (h.isInt64_or_mem_leaves hn).imp_right (List.mem_append_left _)
      · exact (hrest.isInt64_or_mem_leaves hn).imp_right (List.mem_append_right _)
  | _, _, .other _ hrest, hn => by
      obtain hn | hn := List.mem_append.1 hn
      · exact .inr (List.mem_append_left _ hn)
      · exact (hrest.isInt64_or_mem_leaves hn).imp_right (List.mem_append_right _)

end

end Alike

namespace Generator

variable {g : Generator} {environment : Override.Environment} {store : FileStore} {t tree : Table}
  {file : SourceFile}

theorem Overridden.keptOrInt64 (h : g.Overridden environment t tree) :
    EntriesAlike Override.KeptOrInt64 t tree := by
  cases h with
  | off => exact .refl (fun _ _ => .inl rfl) t
  | applied _ happly _ =>
      have halike := Override.Source.alike_apply Override.allows_keptOrInt64
        ⟨g.variablePrefix, environment⟩ [] t
      rwa [happly] at halike

/-- A run on a configuration that makes this of it by overrides, and emits this file. -/
structure Generates (g : Generator) (environment : Override.Environment) (store : FileStore)
    (t tree : Table) (file : SourceFile) : Prop where
  overridden : g.Overridden environment t tree
  emitted : ∃ loader last, outcome (Loader.loadAll store (Value.entryReferences tree))
      (.new g.inputDirectory g.limit) = (.ok (), loader) ∧
    outcome (Emitter.emit ⟨g.mode, g.package, g.variablePrefix⟩ store tree (Catalog.collect tree))
      ⟨loader, []⟩ = (.ok file, last)

theorem generateTree_eq_ok_iff_generates {s : Session} {text : String} :
    (∃ after, outcome (g.generateTree environment t) s = (.ok text, after)) ↔
      ∃ tree file, g.Generates environment s.store t tree file ∧ text = file.text := by
  rw [generateTree_eq_ok_iff]
  constructor
  · rintro ⟨tree, loader, file, last, hoverridden, hload, hemit, htext⟩
    exact ⟨tree, file, ⟨hoverridden, loader, last, hload, hemit⟩, htext⟩
  · rintro ⟨tree, file, ⟨hoverridden, loader, last, hload, hemit⟩, htext⟩
    exact ⟨tree, loader, file, last, hoverridden, hload, hemit, htext⟩

/-- The integers that a generated source states where it declares `int64` are those of the
configuration at such places, with its overrides. No override brings in one that is out of range, so
all are in range exactly if those that are in the document are. -/
theorem int64s_fit_iff {s after : Session} {text : String}
    (h : outcome (g.generateTree environment t) s = (.ok text, after)) :
    ∃ tree file, g.Generates environment s.store t tree file ∧ text = file.text ∧
      EntriesAlike Override.KeptOrInt64 t tree ∧
      file.int64s = Emitter.int64s g.mode tree (Catalog.collect tree) ∧
      ((∀ n ∈ file.int64s, IsInt64 n) ↔
        ∀ n ∈ Emitter.int64s g.mode tree (Catalog.collect tree),
          .integer n ∈ Value.entryLeaves t → IsInt64 n) := by
  obtain ⟨tree, file, hgenerates, htext⟩ := generateTree_eq_ok_iff_generates.1 ⟨after, h⟩
  have halike := hgenerates.overridden.keptOrInt64
  obtain ⟨_, _, -, hemit⟩ := hgenerates.emitted
  have hint64s : file.int64s = Emitter.int64s g.mode tree (Catalog.collect tree) :=
    Emitter.int64s_emit hemit
  refine ⟨tree, file, hgenerates, htext, halike, hint64s, ?_⟩
  rw [hint64s]
  refine ⟨fun hall n hn _ => hall n hn, fun hdocument n hn => ?_⟩
  obtain hn64 | hleaf := halike.isInt64_or_mem_leaves (Emitter.mem_entryLeaves_of_mem_int64s hn)
  · exact hn64
  · exact hdocument n hn hleaf

def single (n : Int) : Table :=
  [("a", .integer n)]

def singleFile (n : Int) : SourceFile :=
  ⟨"config", [], [.group [⟨"A", some .int64, some (.integer n)⟩]]⟩

/-- Twenty digits are not too many. -/
theorem isWritable_of_lt {n : Int} (h : n.natAbs < 10 ^ 20) : Decimal.IsWritable n := by
  have hdigits : 20 ≤ Decimal.maxDigits := by decide
  unfold Decimal.IsWritable
  generalize Decimal.maxDigits = digits at hdigits ⊢
  exact Nat.lt_of_lt_of_le h (Nat.pow_le_pow_right (by decide) hdigits)

theorem emit_single {n : Int} (hn : Decimal.IsWritable n) (store : FileStore) (loader : Loader) :
    outcome (Emitter.emit ⟨.static, "config", "CONFIG"⟩ store (single n)
      (Catalog.collect (single n))) ⟨loader, []⟩ = (.ok (singleFile n), ⟨loader, []⟩) := by
  have hwrite : Decimal.writeInt n = .ok (toString n) := if_pos hn
  have hfield : Build.field store .root "a" (.integer n) = pure (.integer n) := by
    rw [Build.field.eq_def]
    refine (Build.literal.eq_def store (.integer n)).trans ?_
    change Build.integer n = _
    rw [Build.integer, hwrite]
    rfl
  have hsorted : Table.sortByKey (single n) = [("a", .integer n)] := rfl
  rw [Emitter.emit]
  simp only [Emitter.staticValues, hsorted, List.mapM_cons, List.mapM_nil, Emitter.assignment,
    hfield]
  rfl

def plainGenerator : Generator :=
  ⟨"config", .static, false, none, 0, "CONFIG"⟩

def overridingGenerator : Generator :=
  { plainGenerator with overrides := true }

def greatest : Override.Environment :=
  [("CONFIG_A", "9223372036854775807")]

theorem overridden_greatest : overridingGenerator.Overridden greatest
    (single 9223372036854775808) (single 9223372036854775807) :=
  have happly : (⟨"CONFIG", greatest⟩ : Override.Source).apply [] (single 9223372036854775808) =
      (single 9223372036854775807, ⟨["CONFIG_A"], [], none⟩) := rfl
  .applied rfl happly rfl

theorem int64s_fit_greatest : ∃ text after,
    outcome (overridingGenerator.generateTree greatest (single 9223372036854775808))
      (⟨⟨[], [], [], 0⟩, []⟩ : Session) = (.ok text, after) ∧
    ∃ tree file, overridingGenerator.Generates greatest ⟨[], [], [], 0⟩
        (single 9223372036854775808) tree file ∧
      text = file.text ∧ file.int64s = [9223372036854775807] ∧ ∀ n ∈ file.int64s, IsInt64 n := by
  have hwritable : Decimal.IsWritable 9223372036854775807 := isWritable_of_lt (by decide)
  obtain ⟨after, h⟩ : ∃ after, outcome (overridingGenerator.generateTree greatest
      (single 9223372036854775808)) (⟨⟨[], [], [], 0⟩, []⟩ : Session) =
        (.ok (singleFile 9223372036854775807).text, after) :=
    generateTree_eq_ok_iff_generates.2
      ⟨_, _, ⟨overridden_greatest, _, _, rfl, emit_single hwritable _ _⟩, rfl⟩
  obtain ⟨tree, file, hgenerates, htext, -, hint64s, hfit⟩ := int64s_fit_iff h
  obtain rfl := hgenerates.overridden.unique overridden_greatest
  have hgreatest : Emitter.int64s .static (single 9223372036854775807)
      (Catalog.collect (single 9223372036854775807)) = [9223372036854775807] := rfl
  refine ⟨_, after, h, _, file, hgenerates, htext, hint64s.trans hgreatest, hfit.2 ?_⟩
  intro n hn _
  obtain rfl := List.mem_singleton.1 hn
  exact ⟨by decide, by decide⟩

def isSingle (n : Int) : Except Toml.DecodeError Table → Bool
  | .ok [("a", .integer m)] => m == n
  | _ => false

theorem eq_of_isSingle {n : Int} {result : Except Toml.DecodeError Table} (h : isSingle n result) :
    result = .ok (single n) := by
  unfold isSingle at h
  split at h
  · rw [eq_of_beq h]
    rfl
  · cases h

theorem decode_tooGreat :
    Toml.decode "a = 9223372036854775808" = .ok (single 9223372036854775808) :=
  eq_of_isSingle (by decide +kernel)

/-- The greatest number and one more is written as it stands in the document. -/
theorem not_all_int64s_fit : ¬ ∀ (document : String) (t : Table) (g : Generator)
    (environment : Override.Environment) (s after : Session) (tree : Table) (file : SourceFile),
    Toml.decode document = .ok t →
    outcome (g.generateTree environment t) s = (.ok file.text, after) →
    g.Generates environment s.store t tree file → ∀ n ∈ file.int64s, IsInt64 n := by
  intro h
  have hwritable : Decimal.IsWritable 9223372036854775808 := isWritable_of_lt (by decide)
  have hgenerates : plainGenerator.Generates [] ⟨[], [], [], 0⟩ (single 9223372036854775808)
      (single 9223372036854775808) (singleFile 9223372036854775808) :=
    ⟨.off rfl, _, _, rfl, emit_single hwritable _ _⟩
  obtain ⟨after, hrun⟩ : ∃ after, outcome (plainGenerator.generateTree []
      (single 9223372036854775808)) (⟨⟨[], [], [], 0⟩, []⟩ : Session) =
        (.ok (singleFile 9223372036854775808).text, after) :=
    generateTree_eq_ok_iff_generates.2 ⟨_, _, hgenerates, rfl⟩
  have hint64s : (singleFile 9223372036854775808).int64s = [9223372036854775808] := rfl
  have hin := h _ _ _ _ _ _ _ _ decode_tooGreat hrun hgenerates 9223372036854775808
    (by rw [hint64s]; exact List.mem_singleton_self _)
  exact absurd hin.2 (by decide)

end Generator

end TypedConfig
