import TypedConfig.Proofs.Schema.Closure
import Mathlib.Data.List.Forall2

namespace TypedConfig

namespace Table

def recordAt? (t : Table) (path : List String) : Option Value :=
  (t.along? path).bind List.getLast?

/-- The same paths lead to tables, and the same paths to arrays of tables. What stands anywhere else
may differ or be missing. -/
def SameOutline (t u : Table) : Prop :=
  ∀ path, (t.recordAt? path).map Value.kind = (u.recordAt? path).map Value.kind

def records (t : Table) : Table :=
  (sortByKey t).filter fun e => e.2.record?.isSome

variable {t u entries : Table} {key : String} {v : Value}

theorem recordAt?_single (t : Table) (key : String) :
    t.recordAt? [key] = (t.lookup key).filter (·.record?.isSome) := by
  rw [recordAt?, along?]
  cases t.lookup key with
  | none => rfl
  | some v => cases h : v.record? <;> simp [along?, h, Option.filter_some]

theorem recordAt?_cons {path : List String} (hkey : t.lookup key = some v)
    (hrecord : v.record? = some entries) (hpath : path ≠ []) :
    t.recordAt? (key :: path) = entries.recordAt? path := by
  rw [recordAt?, recordAt?, along?_cons path hkey hrecord]
  obtain ⟨next, path, rfl⟩ := List.exists_cons_of_ne_nil hpath
  rw [along?]
  cases entries.lookup next with
  | none => rfl
  | some w =>
      cases hw : w.record? with
      | none => simp [hw]
      | some below => cases h : below.along? path <;> simp [hw, h]

theorem mem_records {e : String × Value} : e ∈ t.records ↔ e ∈ t ∧ e.2.record?.isSome := by
  rw [records, List.mem_filter, mem_sortByKey]

theorem mem_keys_records (ht : t.KeysDistinct) :
    key ∈ Table.keys t.records ↔ (t.recordAt? [key]).isSome := by
  rw [recordAt?_single, keys, List.mem_map]
  constructor
  · rintro ⟨⟨_, v⟩, he, rfl⟩
    obtain ⟨hmem, hrecord⟩ := mem_records.1 he
    simp [ht.lookup_eq hmem, Option.filter_some, hrecord]
  · intro h
    obtain ⟨v, hv⟩ := Option.isSome_iff_exists.1 h
    obtain ⟨hkey, hrecord⟩ := Option.filter_eq_some_iff.1 hv
    exact ⟨_, mem_records.2 ⟨mem_of_lookup hkey, hrecord⟩, rfl⟩

/-- Sorted and without repetitions, the keys are determined by which of them there are. -/
theorem keys_records_eq (ht : t.KeysDistinct) (hu : u.KeysDistinct) (h : t.SameOutline u) :
    Table.keys t.records = Table.keys u.records := by
  have hsub (t : Table) : (Table.keys t.records).Sublist (Table.keys (sortByKey t)) :=
    List.filter_sublist.map _
  have hnodup {t : Table} (ht : t.KeysDistinct) : (Table.keys t.records).Nodup :=
    (((sortByKey_perm t).map Prod.fst).nodup_iff.2 ht.1).sublist (hsub t)
  have hsorted (t : Table) : (Table.keys t.records).Pairwise (· ≤ ·) :=
    (pairwise_keys_sortByKey t).sublist (hsub t)
  have hperm : (Table.keys t.records).Perm (Table.keys u.records) := by
    refine (List.perm_ext_iff_of_nodup (hnodup ht) (hnodup hu)).2 fun key => ?_
    rw [mem_keys_records ht, mem_keys_records hu, ← Option.isSome_map (f := Value.kind), h [key],
      Option.isSome_map]
  exact hperm.eq_of_pairwise (fun _ _ _ _ => String.le_antisymm) (hsorted t) (hsorted u)

theorem SameOutline.below {entries others : Table} {w : Value} (h : t.SameOutline u)
    (ht : t.lookup key = some v) (hv : v.record? = some entries) (hu : u.lookup key = some w)
    (hw : w.record? = some others) : v.kind = w.kind ∧ entries.SameOutline others := by
  constructor
  · have hkey := h [key]
    rw [recordAt?_single, recordAt?_single, ht, hu] at hkey
    simpa [Option.filter_some, hv, hw] using hkey
  · intro path
    by_cases hpath : path = []
    · subst hpath
      rfl
    · rw [← recordAt?_cons ht hv hpath, ← recordAt?_cons hu hw hpath]
      exact h (key :: path)

theorem recordAt?_congr {path : List String} (h : t.lookup key = u.lookup key) :
    t.recordAt? (key :: path) = u.recordAt? (key :: path) := by
  rw [recordAt?, recordAt?, along?, along?, h]

namespace SameOutline

theorem symm (h : t.SameOutline u) : u.SameOutline t :=
  fun path => (h path).symm

theorem trans {after : Table} (h : t.SameOutline u) (hafter : u.SameOutline after) :
    t.SameOutline after :=
  fun path => (h path).trans (hafter path)

/-- Tables of one kind under the same key. -/
theorem record {entries others : Table} {w : Value} (hv : v.record? = some entries)
    (hw : w.record? = some others) (hkind : v.kind = w.kind) (hbelow : entries.SameOutline others)
    (h : t.SameOutline u) : SameOutline ((key, v) :: t) ((key, w) :: u) := by
  intro path
  rcases path with _ | ⟨k, path⟩
  · rfl
  by_cases hk : k = key
  · subst hk
    by_cases hpath : path = []
    · subst hpath
      rw [recordAt?_single, recordAt?_single, List.lookup_cons_self, List.lookup_cons_self]
      simp [Option.filter_some, hv, hw, hkind]
    · rw [recordAt?_cons List.lookup_cons_self hv hpath,
        recordAt?_cons List.lookup_cons_self hw hpath]
      exact hbelow path
  · have hlookup (w : Value) (u : Table) : ((key, w) :: u).lookup k = u.lookup k := by
      rw [List.lookup_cons, beq_eq_false_iff_ne.2 hk]
    rw [recordAt?_congr (hlookup v t), recordAt?_congr (hlookup w u)]
    exact h (k :: path)

/-- A leaf under a new key. -/
theorem leaf (hv : v.record? = none) (hnew : u.lookup key = none) (h : t.SameOutline u) :
    t.SameOutline ((key, v) :: u) := by
  intro path
  rcases path with _ | ⟨k, path⟩
  · rfl
  rw [h (k :: path)]
  by_cases hk : k = key
  · subst hk
    simp [recordAt?, along?, List.lookup_cons_self, hv, hnew]
  · rw [recordAt?_congr]
    rw [List.lookup_cons, beq_eq_false_iff_ne.2 hk]

end SameOutline

theorem sizeOf_lt_of_record? (hmem : (key, v) ∈ t) (hrecord : v.record? = some entries) :
    sizeOf entries < sizeOf t := by
  have hlt := List.sizeOf_lt_of_mem hmem
  obtain rfl | ⟨rest, rfl⟩ := Value.eq_of_record? hrecord
  · simp at hlt
    omega
  · simp at hlt
    omega

end Table

theorem Value.kind_of_record? {v : Value} {entries : Table} (h : v.record? = some entries) :
    v.kind = if v.suffix = .config then .table else .tableArray := by
  obtain rfl | ⟨rest, rfl⟩ := eq_of_record? h
  · rfl
  · rfl

theorem Value.suffix_eq_of_kind {v w : Value} {entries others : Table}
    (hv : v.record? = some entries) (hw : w.record? = some others) (h : v.kind = w.kind) :
    v.suffix = w.suffix := by
  rw [kind_of_record? hv, kind_of_record? hw] at h
  cases hvs : v.suffix <;> cases hws : w.suffix <;> simp [hvs, hws] at h <;> rfl

namespace Catalog

def scopes (c : Catalog) : List Scope :=
  c.schemas.map Schema.scope

variable {c d : Catalog}

/-- Leaves add nothing. -/
theorem addEntries_eq_foldl_records (scope : Scope) (c : Catalog) (t : Table) :
    addEntries scope c t = t.records.foldl (fun c e => addValue scope e.1 c e.2) c := by
  rw [addEntries_eq_foldl, Table.records, List.foldl_filter]
  congr 1
  funext c e
  split
  · rfl
  · next hleaf => exact addValue_of_isLeaf _ _ _ (by simpa [Value.isLeaf_eq] using hleaf)

theorem contains_of_scopes (h : c.scopes = d.scopes) (name : String) :
    c.contains name = d.contains name := by
  have hany (c : Catalog) : c.contains name = c.scopes.any (·.name == some name) := by
    rw [scopes, List.any_map]
    rfl
  rw [hany, hany, h]

theorem scopes_add (h : c.scopes = d.scopes) {s s' : Schema} (hs : s.scope = s'.scope) :
    (c.add s).scopes = (d.add s').scopes := by
  have hname : s.name = s'.name := Option.some.inj (congrArg Scope.name hs)
  rw [scopes, scopes, schemas_add, schemas_add, contains_of_scopes h, hname]
  split
  · exact h
  · rw [List.map_append, List.map_append, List.map_singleton, List.map_singleton, hs]
    exact congrArg (· ++ _) h

def SameVisit (t u : Table) : Prop :=
  ∀ (scope : Scope) (c d : Catalog), c.scopes = d.scopes →
    (addEntries scope c t).scopes = (addEntries scope d u).scopes

structure SameEntry (e f : String × Value) : Prop where
  key : e.1 = f.1
  suffix : e.2.suffix = f.2.suffix
  records : ∃ entries others, e.2.record? = some entries ∧ f.2.record? = some others ∧
    SameVisit entries others

theorem SameEntry.scopes_addValue {e f : String × Value} (h : SameEntry e f) (scope : Scope)
    (hcd : c.scopes = d.scopes) :
    (addValue scope e.1 c e.2).scopes = (addValue scope f.1 d f.2).scopes := by
  obtain ⟨entries, others, hentries, hothers, hvisit⟩ := h.records
  rw [addValue_of_record? hentries, addValue_of_record? hothers, h.key, h.suffix]
  dsimp only
  rw [contains_of_scopes hcd]
  split
  · exact hcd
  · exact hvisit _ _ _ (scopes_add hcd rfl)

theorem sameVisit_of_records {t u : Table} (h : List.Forall₂ SameEntry t.records u.records) :
    SameVisit t u := by
  intro scope c d hcd
  rw [addEntries_eq_foldl_records, addEntries_eq_foldl_records]
  generalize t.records = entries, u.records = others at h ⊢
  induction h generalizing c d with
  | nil => exact hcd
  | cons hentry _ ih => exact ih _ _ (hentry.scopes_addValue scope hcd)

/-- The traversal goes down both tables side by side: leaves add nothing, and all other entries are
met in the same order. -/
theorem sameVisit_of_sameOutline {t u : Table} (ht : t.KeysDistinct) (hu : u.KeysDistinct)
    (h : t.SameOutline u) : SameVisit t u := by
  have hkeys : List.Forall₂ (fun e f : String × Value => e.1 = f.1) t.records u.records := by
    rw [← List.forall₂_map_right_iff, ← List.forall₂_map_left_iff, List.forall₂_eq_eq_eq]
    exact Table.keys_records_eq ht hu h
  obtain ⟨hlength, hkeys⟩ := List.forall₂_iff_zip.1 hkeys
  refine sameVisit_of_records (List.forall₂_iff_zip.2 ⟨hlength, fun {e f} hzip => ?_⟩)
  have hkey := hkeys hzip
  obtain ⟨he, hf⟩ := List.of_mem_zip hzip
  obtain ⟨he, hrecord⟩ := Table.mem_records.1 he
  obtain ⟨hf, hrecord'⟩ := Table.mem_records.1 hf
  obtain ⟨entries, hentries⟩ := Option.isSome_iff_exists.1 hrecord
  obtain ⟨others, hothers⟩ := Option.isSome_iff_exists.1 hrecord'
  have hlookup := hu.lookup_eq hf
  rw [← hkey] at hlookup
  obtain ⟨hkind, hbelow⟩ := h.below (ht.lookup_eq he) hentries hlookup hothers
  have hsmaller := Table.sizeOf_lt_of_record? he hentries
  exact ⟨hkey, Value.suffix_eq_of_kind hentries hothers hkind, entries, others, hentries, hothers,
    sameVisit_of_sameOutline ((ht.of_mem he).of_record? hentries)
      ((hu.of_mem hf).of_record? hothers) hbelow⟩
termination_by sizeOf t

/-- The types come in the same order, that of the visit or that of their names, with the same
paths and marks. -/
theorem same_types_of_sameOutline {t u : Table} (ht : t.KeysDistinct) (hu : u.KeysDistinct)
    (h : t.SameOutline u) :
    (collect t).schemas.map Schema.scope = (collect u).schemas.map Schema.scope ∧
      (collect t).sorted.map Schema.scope = (collect u).sorted.map Schema.scope := by
  have hscopes : (collect t).scopes = (collect u).scopes :=
    sameVisit_of_sameOutline ht hu h .root empty empty rfl
  refine ⟨hscopes, ?_⟩
  rw [scopes, scopes, ← List.forall₂_eq_eq_eq, List.forall₂_map_left_iff,
    List.forall₂_map_right_iff] at hscopes
  rw [← List.forall₂_eq_eq_eq, List.forall₂_map_left_iff, List.forall₂_map_right_iff]
  refine Sorting.forall₂_sort (fun a b x y hax hby => ?_) hscopes
  rw [Option.some.inj (congrArg Scope.name hax), Option.some.inj (congrArg Scope.name hby)]

def sparse : Table :=
  [("a_b", .table [("c", .table [("on", .boolean true)])]),
    ("a", .table [("b_c", .table [("size", .integer 5)])]),
    ("hosts", .array [.table [("tls", .table [])], .table [("later", .table [])]])]

def furnished : Table :=
  [("a_b", .table [("name", .string "x"), ("c", .table [])]),
    ("debug", .array [.boolean true]),
    ("a", .table [("b_c", .table [("idle", .string "30s"), ("size", .float .nan)])]),
    ("hosts", .array [.table [("port", .integer 80), ("tls", .table [])]])]

theorem sameOutline_furnished : sparse.SameOutline furnished := by
  have hempty : Table.SameOutline [] [] := fun _ => rfl
  have hleaf {key : String} {v : Value} (hv : v.record? = none) :
      Table.SameOutline [] [(key, v)] :=
    .leaf hv rfl hempty
  have hfirst : Table.SameOutline [("c", .table [("on", .boolean true)])]
      [("name", .string "x"), ("c", .table [])] :=
    .leaf rfl rfl (.record rfl rfl rfl (hleaf rfl).symm hempty)
  have hsecond : Table.SameOutline [("b_c", .table [("size", .integer 5)])]
      [("b_c", .table [("idle", .string "30s"), ("size", .float .nan)])] :=
    .record rfl rfl rfl (.leaf rfl rfl ((hleaf rfl).symm.trans (hleaf rfl))) hempty
  have hitem : Table.SameOutline [("tls", .table [])] [("port", .integer 80), ("tls", .table [])] :=
    .leaf rfl rfl (.record rfl rfl rfl hempty hempty)
  exact .record rfl rfl rfl hfirst (.leaf rfl rfl
    (.record rfl rfl rfl hsecond (.record rfl rfl rfl hitem hempty)))

theorem same_types_of_sameOutline_furnished : sparse.KeysDistinct ∧ furnished.KeysDistinct ∧
    sparse.SameOutline furnished ∧
    (collect sparse).schemas.map Schema.scope = (collect furnished).schemas.map Schema.scope ∧
    (collect sparse).sorted.map Schema.scope = (collect furnished).sorted.map Schema.scope := by
  have hsparse : sparse.KeysDistinct := by decide
  have hfurnished : furnished.KeysDistinct := by decide
  exact ⟨hsparse, hfurnished, sameOutline_furnished,
    same_types_of_sameOutline hsparse hfurnished sameOutline_furnished⟩

end Catalog

end TypedConfig
