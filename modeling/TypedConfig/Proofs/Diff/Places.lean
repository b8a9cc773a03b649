import TypedConfig.Proofs.Diff.Keys

namespace TypedConfig.Diff

def valueAt : Option Value → List String → Option Value
  | found, [] => found
  | found, key :: path => valueAt (found.bind fun v => v.entries.lookup key) path

def Change.Between : Change → Option Value → Option Value → Prop
  | .changed v w, left, right => left = some v ∧ right = some w ∧
      (v.isTable = false ∨ w.isTable = false) ∧ v.equal w = false
  | .added w, left, right => left = none ∧ right = some w
  | .removed v, left, right => left = some v ∧ right = none

/-- The change is what differs at the end of a path, and before its end the path leads to tables on
both sides. -/
structure DiffersAt (left right : Option Value) (path : List String) (change : Change) : Prop where
  above : ∀ start, start <+: path → start ≠ path →
    (∃ t, valueAt left start = some (.table t)) ∧ ∃ u, valueAt right start = some (.table u)
  here : change.Between (valueAt left path) (valueAt right path)

def keyText (outer : String) (path : List String) : String :=
  path.foldl fullKey outer

variable {left right : Option Value} {first second : Table} {key : String} {path : List String}
  {change : Change}

theorem valueAt_none (path : List String) : valueAt none path = none := by
  induction path with
  | nil => rfl
  | cons key path ih => exact ih

theorem not_between_none : ¬ change.Between none none := by
  cases change <;> simp [Change.Between]

theorem not_between_tables : ¬ change.Between (some (.table first)) (some (.table second)) := by
  cases change with
  | changed v w =>
      rintro ⟨hv, hw, hkind, -⟩
      cases hv
      cases hw
      obtain hkind | hkind := hkind <;> cases hkind
  | added | removed => simp [Change.Between]

theorem between_added_iff {w : Value} : change.Between none (some w) ↔ change = .added w := by
  cases change with
  | added w' =>
      simp only [Change.Between, true_and, Option.some.injEq, Change.added.injEq]
      exact eq_comm
  | changed | removed => simp [Change.Between]

theorem between_removed_iff {v : Value} : change.Between (some v) none ↔ change = .removed v := by
  cases change with
  | removed v' =>
      simp only [Change.Between, and_true, Option.some.injEq, Change.removed.injEq]
      exact eq_comm
  | changed | added => simp [Change.Between]

theorem between_changed_iff {v w : Value} (h : v.isTable = false ∨ w.isTable = false) :
    change.Between (some v) (some w) ↔ change = .changed v w ∧ v.equal w = false := by
  cases change with
  | changed v' w' =>
      constructor
      · rintro ⟨hv, hw, -, hequal⟩
        cases hv
        cases hw
        exact ⟨rfl, hequal⟩
      · rintro ⟨hchange, hequal⟩
        cases hchange
        exact ⟨rfl, rfl, h, hequal⟩
  | added | removed => simp [Change.Between]

/-- Only two tables can differ in a place below them. -/
theorem differsAt_iff_of_not_tables
    (h : ¬ ((∃ t, left = some (.table t)) ∧ ∃ u, right = some (.table u))) :
    DiffersAt left right path change ↔ path = [] ∧ change.Between left right := by
  constructor
  · rintro ⟨habove, hhere⟩
    cases path with
    | nil => exact ⟨rfl, hhere⟩
    | cons key path => exact absurd (habove [] List.nil_prefix (List.cons_ne_nil _ _).symm) h
  · rintro ⟨rfl, hhere⟩
    exact ⟨fun start hstart hne => absurd (List.prefix_nil.1 hstart) hne, hhere⟩

theorem not_differsAt_none : ¬ DiffersAt none none path change := by
  intro h
  have hhere := h.here
  rw [valueAt_none] at hhere
  exact not_between_none hhere

theorem differsAt_cons_iff :
    DiffersAt (some (.table first)) (some (.table second)) (key :: path) change ↔
      DiffersAt (first.lookup key) (second.lookup key) path change := by
  constructor
  · rintro ⟨habove, hhere⟩
    refine ⟨fun start hstart hne => ?_, hhere⟩
    refine habove (key :: start) (List.cons_prefix_cons.2 ⟨rfl, hstart⟩) fun h => ?_
    exact hne (List.cons.inj h).2
  · rintro ⟨habove, hhere⟩
    refine ⟨fun start hstart hne => ?_, hhere⟩
    cases start with
    | nil => exact ⟨⟨first, rfl⟩, second, rfl⟩
    | cons _ start =>
        obtain ⟨rfl, hrest⟩ := List.cons_prefix_cons.1 hstart
        exact habove start hrest fun h => hne (h ▸ rfl)

theorem differsAt_tables_iff : DiffersAt (some (.table first)) (some (.table second)) path change ↔
    ∃ key ∈ sortedKeys first second, ∃ rest, path = key :: rest ∧
      DiffersAt (first.lookup key) (second.lookup key) rest change := by
  constructor
  · intro h
    cases path with
    | nil => exact absurd h.here not_between_tables
    | cons key rest =>
        have hbelow := differsAt_cons_iff.1 h
        refine ⟨key, mem_sortedKeys.2 ?_, rest, rfl, hbelow⟩
        by_contra hkey
        obtain ⟨hfirst, hsecond⟩ := not_or.1 hkey
        rw [← Value.hasKey_iff_mem_keys, Value.hasKey] at hfirst hsecond
        rw [Option.not_isSome_iff_eq_none.1 hfirst, Option.not_isSome_iff_eq_none.1 hsecond]
          at hbelow
        exact not_differsAt_none hbelow
  · rintro ⟨key, -, rest, rfl, hbelow⟩
    exact differsAt_cons_iff.2 hbelow

/-- The places are those of the changes, in order, and the report names them in this order. -/
structure Located (places : List (List String × Change))
    (differs : List String → Change → Prop) (report : String → List Entry) : Prop where
  sorted : (places.map Prod.fst).Pairwise (List.Lex (· < ·))
  mem_iff : ∀ path change, (path, change) ∈ places ↔ differs path change
  entries : ∀ full, report full = places.map fun p => ⟨keyText full p.1, p.2⟩

theorem located_nil : Located [] (fun _ _ => False) (fun _ => []) where
  sorted := .nil
  mem_iff _ _ := iff_of_false List.not_mem_nil not_false
  entries _ := rfl

theorem located_single (c : Change) :
    Located [([], c)] (fun path change => path = [] ∧ change = c) (fun full => [⟨full, c⟩]) where
  sorted := List.pairwise_singleton _ _
  mem_iff path change := by rw [List.mem_singleton, Prod.mk.injEq]
  entries _ := rfl

/-- The changes at the keys of a table, key by key. -/
theorem Located.keys {keys : List String} (hkeys : keys.Pairwise (· < ·))
    {places : String → List (List String × Change)} {differs : String → List String → Change → Prop}
    {report : String → String → List Entry}
    (h : ∀ key, Located (places key) (differs key) (report key)) :
    Located (keys.flatMap fun key => (places key).map fun p => (key :: p.1, p.2))
      (fun path change => ∃ key ∈ keys, ∃ rest, path = key :: rest ∧ differs key rest change)
      (fun outer => keys.flatMap fun key => report key (fullKey outer key)) where
  sorted := by
    rw [List.map_flatMap, List.pairwise_flatMap]
    constructor
    -- Paths that begin with the same key are in order by what follows, others by this key.
    · intro key _
      rw [List.map_map]
      exact List.pairwise_map.2 ((List.pairwise_map.1 (h key).sorted).imp .cons)
    · refine hkeys.imp fun hlt path hpath path' hpath' => ?_
      simp only [List.mem_map] at hpath hpath'
      obtain ⟨_, ⟨_, _, rfl⟩, rfl⟩ := hpath
      obtain ⟨_, ⟨_, _, rfl⟩, rfl⟩ := hpath'
      exact .rel hlt
  mem_iff path change := by
    simp only [List.mem_flatMap, List.mem_map, Prod.mk.injEq, Prod.exists, ← (h _).mem_iff]
    constructor
    · rintro ⟨key, hkey, rest, _, hmem, rfl, rfl⟩
      exact ⟨key, hkey, rest, rfl, hmem⟩
    · rintro ⟨key, hkey, rest, rfl, hmem⟩
      exact ⟨key, hkey, rest, change, hmem, rfl, rfl⟩
  entries outer := by
    rw [List.map_flatMap]
    refine List.flatMap_congr fun key _ => ?_
    rw [(h key).entries, List.map_map]
    rfl

def changesBetween (left right : Option Value) (full : String) : List Entry :=
  match left, right with
  | some v, right => compareValue full v right
  | none, some w => [⟨full, .added w⟩]
  | none, none => []

theorem Located.congr {places : List (List String × Change)}
    {differs differs' : List String → Change → Prop} {report report' : String → List Entry}
    (h : Located places differs report) (hdiffers : ∀ path c, differs' path c ↔ differs path c)
    (hreport : ∀ full, report' full = report full) : Located places differs' report' where
  sorted := h.sorted
  mem_iff path change := (h.mem_iff path change).trans (hdiffers path change).symm
  entries full := (hreport full).trans (h.entries full)

theorem exists_located_of_lookups
    (h : ∀ v w, left = some v → right = some w →
      ∃ places, Located places (DiffersAt left right) (changesBetween left right)) :
    ∃ places, Located places (DiffersAt left right) (changesBetween left right) := by
  cases left with
  | none =>
      cases right with
      | none =>
          exact ⟨_, located_nil.congr (fun _ _ => iff_of_false not_differsAt_none not_false)
            fun _ => rfl⟩
      | some w =>
          refine ⟨_, (located_single (.added w)).congr (fun path change => ?_) fun _ => rfl⟩
          rw [differsAt_iff_of_not_tables (by simp), between_added_iff]
  | some v =>
      cases right with
      | none =>
          refine ⟨_, (located_single (.removed v)).congr (fun path change => ?_)
            fun full => compareValue_none full v⟩
          rw [differsAt_iff_of_not_tables (by simp), between_removed_iff]
      | some w => exact h v w rfl rfl

theorem exists_located_of_not_tables {v w : Value} (h : v.isTable = false ∨ w.isTable = false) :
    ∃ places, Located places (DiffersAt (some v) (some w)) (changesBetween (some v) (some w)) := by
  have hdiffers (path : List String) (change : Change) :
      DiffersAt (some v) (some w) path change ↔
        path = [] ∧ change = .changed v w ∧ v.equal w = false := by
    rw [differsAt_iff_of_not_tables, between_changed_iff h]
    rintro ⟨⟨t, ht⟩, u, hu⟩
    cases ht
    cases hu
    obtain h | h := h <;> cases h
  have hreport (full : String) := compareValue_of_not_tables full h
  cases hequal : v.equal w with
  | true =>
      refine ⟨_, located_nil.congr (fun path change => ?_) fun full => ?_⟩
      · rw [hdiffers, hequal]
        simp
      · exact (hreport full).trans (if_pos hequal)
  | false =>
      refine ⟨_, (located_single (.changed v w)).congr (fun path change => ?_) fun full => ?_⟩
      · rw [hdiffers, hequal]
        simp
      · exact (hreport full).trans (if_neg (by simp [hequal]))

theorem exists_located {v w : Value} (hv : v.KeysDistinct) (hw : w.KeysDistinct) :
    ∃ places, Located places (DiffersAt (some v) (some w)) (changesBetween (some v) (some w)) := by
  refine Value.pair_induction (P := fun v w => ∃ places,
      Located places (DiffersAt (some v) (some w)) (changesBetween (some v) (some w)))
    (fun first second hfirst hsecond ih => ?_) (fun v w h => exists_located_of_not_tables h) hv hw
  -- The induction reaches the keys that both tables have; at the others one value is reported.
  have hkey (key : String) : ∃ places, Located places
      (DiffersAt (first.lookup key) (second.lookup key))
      (changesBetween (first.lookup key) (second.lookup key)) := by
    refine exists_located_of_lookups fun v w hleft hright => ?_
    rw [hleft, hright]
    exact ih key v w hleft hright
  choose places hplaces using hkey
  refine ⟨_, (Located.keys (pairwise_sortedKeys hfirst hsecond) hplaces).congr
    (fun path change => differsAt_tables_iff) fun outer => ?_⟩
  exact (compareValue_tables outer first second).trans (compare_eq_flatMap hfirst hsecond)

theorem exists_places (hfirst : first.KeysDistinct) (hsecond : second.KeysDistinct) :
    ∃ places, Located places (DiffersAt (some (.table first)) (some (.table second)))
      (compare first second) := by
  obtain ⟨places, h⟩ := exists_located hfirst hsecond
  exact ⟨places, h.congr (fun _ _ => .rfl) fun full => (compareValue_tables full _ _).symm⟩

/-- The entries of a report are, one for one and in the order of their paths, the places where the
two tables differ. -/
theorem compare_exact (hfirst : first.KeysDistinct) (hsecond : second.KeysDistinct)
    (outer : String) : ∃ places : List (List String × Change),
      (places.map Prod.fst).Pairwise (List.Lex (· < ·)) ∧
      (∀ path change, (path, change) ∈ places ↔
        DiffersAt (some (.table first)) (some (.table second)) path change) ∧
      compare first second outer = places.map fun p => ⟨keyText outer p.1, p.2⟩ := by
  obtain ⟨places, h⟩ := exists_places hfirst hsecond
  exact ⟨places, h.sorted, h.mem_iff, h.entries outer⟩

def gateway : Table :=
  [("route", .table [("host", .string "a"), ("paths", .array [.string "/"]), ("", .table [])]),
    ("", .table [("host", .string "a")]), ("retry", .integer 1)]

def gatewayMoved : Table :=
  [("route", .table [("paths", .array []), ("", .integer 3)]), ("retry", .float .nan),
    ("", .table [("host", .string "b"), ("zone", .table [])])]

theorem compare_exact_gateways : gateway.KeysDistinct ∧ gatewayMoved.KeysDistinct ∧
    ∃ places : List (List String × Change),
      (places.map Prod.fst).Pairwise (List.Lex (· < ·)) ∧
      (∀ path change, (path, change) ∈ places ↔
        DiffersAt (some (.table gateway)) (some (.table gatewayMoved)) path change) ∧
      compare gateway gatewayMoved "" = places.map fun p => ⟨keyText "" p.1, p.2⟩ := by
  have hgateway : gateway.KeysDistinct := by decide
  have hmoved : gatewayMoved.KeysDistinct := by decide
  exact ⟨hgateway, hmoved, compare_exact hgateway hmoved ""⟩

end TypedConfig.Diff
