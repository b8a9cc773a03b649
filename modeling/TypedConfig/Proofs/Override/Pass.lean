import TypedConfig.Proofs.Outcome
import TypedConfig.Proofs.Override.Replacement

namespace TypedConfig

/-- The same tables, keys and arrays of tables, whatever stands at the leaves. -/
def Table.SameShape (t u : Table) : Prop :=
  EntriesAlike (fun _ _ => True) t u

def Value.isEmptyArray : Value → Bool
  | .array [] => true
  | _ => false

namespace Override

inductive Replaces (text : String) : Value → Value → Prop
  | scalar {v w : Value} (hv : ∀ items, v ≠ .array items) (h : convert text v = .ok w) :
      Replaces text v w
  | array {sample : Value} {rest items : List Value} (h : convertArray text sample = .ok items) :
      Replaces text (.array (sample :: rest)) (.array items)

inductive Refuses (text : String) : Value → ConversionError → Prop
  | scalar {v : Value} {cause : ConversionError} (hv : ∀ items, v ≠ .array items)
      (h : convert text v = .error cause) : Refuses text v cause
  | array {sample : Value} {rest : List Value} {cause : ConversionError}
      (h : convertArray text sample = .error cause) : Refuses text (.array (sample :: rest)) cause

variable {text : String} {v w : Value}

namespace Source

theorem replaces_of_replaceLeaf (h : replaceLeaf text v = .ok (some w)) : Replaces text v w := by
  unfold replaceLeaf at h
  split at h
  · cases h
  · obtain ⟨items, hitems, hw⟩ := exists_of_map_eq_ok h
    obtain rfl := Option.some.inj hw
    exact .array hitems
  · next hempty hcons =>
    obtain ⟨converted, hconvert, hw⟩ := exists_of_map_eq_ok h
    obtain rfl := Option.some.inj hw
    refine .scalar ?_ hconvert
    rintro (_ | ⟨sample, rest⟩)
    · exact hempty
    · exact hcons sample rest

theorem eq_of_replaceLeaf_eq_none (h : replaceLeaf text v = .ok none) : v = .array [] := by
  unfold replaceLeaf at h
  split at h
  · rfl
  · obtain ⟨items, -, hw⟩ := exists_of_map_eq_ok h
    cases hw
  · obtain ⟨converted, -, hw⟩ := exists_of_map_eq_ok h
    cases hw

theorem replaceLeaf_eq_error_iff {cause : ConversionError} :
    replaceLeaf text v = .error cause ↔ Refuses text v cause := by
  constructor
  · intro h
    unfold replaceLeaf at h
    split at h
    · cases h
    · exact .array (except_map_eq_error_iff.1 h)
    · next hempty hcons =>
      refine .scalar ?_ (except_map_eq_error_iff.1 h)
      rintro (_ | ⟨sample, rest⟩)
      · exact hempty
      · exact hcons sample rest
  · intro h
    cases h with
    | array h => exact except_map_eq_error_iff.2 h
    | scalar hv h =>
        cases v with
        | array items => exact absurd rfl (hv items)
        | _ => exact except_map_eq_error_iff.2 h

variable {source : Source} {path : Path} {outcome : Outcome} {leaves : List (Path × Value)}

inductive Becomes (source : Source) (path : Path) : Value → Value → Prop
  | unset {v : Value} (h : source.text? path = none) : source.Becomes path v v
  | empty : source.Becomes path (.array []) (.array [])
  | replaced {v w : Value} {text : String} (hset : source.text? path = some text)
      (h : Replaces text v w) : source.Becomes path v w

def LeafBecomes (source : Source) (before after : Path × Value) : Prop :=
  after.1 = before.1 ∧ source.Becomes before.1 before.2 after.2

def Conflicts (source : Source) (leaf : Path × Value) (cause : ConversionError) : Prop :=
  ∃ text, source.text? leaf.1 = some text ∧ Refuses text leaf.2 cause

/-- The names of the variables that are set for leaves, those for empty arrays apart. -/
def appliedNames (source : Source) (leaves : List (Path × Value)) : List String :=
  (leaves.filter fun leaf => (source.text? leaf.1).isSome && !leaf.2.isEmptyArray).map
    fun leaf => source.variableName leaf.1

def ignoredNames (source : Source) (leaves : List (Path × Value)) : List String :=
  (leaves.filter fun leaf => (source.text? leaf.1).isSome && leaf.2.isEmptyArray).map
    fun leaf => source.variableName leaf.1

theorem conflict?_eq_some_iff {leaf : Path × Value} {e : OverrideError} :
    source.conflict? leaf = some e ↔
      e.variableName = source.variableName leaf.1 ∧ source.Conflicts leaf e.cause := by
  obtain ⟨name, cause⟩ := e
  unfold conflict? Conflicts text?
  dsimp only
  cases lookUp source.environment (source.variableName leaf.1) with
  | none => simp
  | some text =>
      simp only [Option.some.injEq, exists_eq_left', ← replaceLeaf_eq_error_iff]
      cases replaceLeaf text leaf.2 with
      | error e => simp [eq_comm]
      | ok replaced => simp

theorem isSome_conflict?_iff {leaf : Path × Value} :
    (source.conflict? leaf).isSome ↔ ∃ cause, source.Conflicts leaf cause := by
  rw [Option.isSome_iff_exists]
  constructor
  · rintro ⟨e, h⟩
    exact ⟨e.cause, (conflict?_eq_some_iff.1 h).2⟩
  · rintro ⟨cause, h⟩
    exact ⟨⟨source.variableName leaf.1, cause⟩, conflict?_eq_some_iff.2 ⟨rfl, h⟩⟩

theorem conflict?_eq_none_iff {leaf : Path × Value} :
    source.conflict? leaf = none ↔ ∀ cause, ¬ source.Conflicts leaf cause := by
  rw [← Option.not_isSome_iff_eq_none, isSome_conflict?_iff, not_exists]

theorem applyLeaf_of_failure {e : OverrideError} (h : outcome.failure = some e) :
    source.applyLeaf path v outcome = (v, outcome) := by
  unfold applyLeaf
  simp only [h]

/-- A leaf whose variable does not convert is left alone. -/
theorem applyLeaf_of_conflict {e : OverrideError} (h : outcome.failure = none)
    (hconflict : source.conflict? (path, v) = some e) :
    source.applyLeaf path v outcome = (v, { outcome with failure := some e }) := by
  obtain ⟨hname, text, hset, hrefuses⟩ := conflict?_eq_some_iff.1 hconflict
  obtain ⟨name, cause⟩ := e
  obtain rfl : name = source.variableName path := hname
  have hreplace : replaceLeaf text v = .error cause := replaceLeaf_eq_error_iff.2 hrefuses
  rw [text?] at hset
  unfold applyLeaf
  simp only [h, hset, hreplace]

theorem applyLeaf_of_converts (h : outcome.failure = none)
    (hconverts : source.conflict? (path, v) = none) :
    source.Becomes path v (source.applyLeaf path v outcome).1 ∧
      (source.applyLeaf path v outcome).2 =
        ⟨outcome.applied ++ source.appliedNames [(path, v)],
          outcome.ignored ++ source.ignoredNames [(path, v)], none⟩ := by
  unfold applyLeaf appliedNames ignoredNames
  dsimp only
  rw [h, ← text?]
  cases hset : source.text? path with
  | none => exact ⟨.unset hset, by simp [hset, ← h]⟩
  | some text =>
      dsimp only
      cases hreplace : replaceLeaf text v with
      | error cause =>
          have hconflict : source.Conflicts (path, v) cause :=
            ⟨text, hset, replaceLeaf_eq_error_iff.1 hreplace⟩
          exact absurd hconflict (conflict?_eq_none_iff.1 hconverts cause)
      | ok replaced =>
          cases replaced with
          | none =>
              obtain rfl := eq_of_replaceLeaf_eq_none hreplace
              exact ⟨.empty, by simp [hset, Value.isEmptyArray]⟩
          | some w =>
              have hnonempty : v.isEmptyArray = false := by
                unfold Value.isEmptyArray
                split
                · cases hreplace
                · rfl
              exact ⟨.replaced hset (replaces_of_replaceLeaf hreplace), by simp [hset, hnonempty]⟩

theorem foldl_visit_of_failure {e : OverrideError} (h : outcome.failure = some e) :
    leaves.foldl source.visit outcome = outcome := by
  induction leaves with
  | nil => rfl
  | cons leaf leaves ih =>
      rw [List.foldl_cons, visit, applyLeaf_of_failure h]
      exact ih

theorem appliedNames_cons (leaf : Path × Value) (leaves : List (Path × Value)) :
    source.appliedNames (leaf :: leaves) =
      source.appliedNames [leaf] ++ source.appliedNames leaves := by
  rw [← List.singleton_append, appliedNames, List.filter_append, List.map_append]
  rfl

theorem ignoredNames_cons (leaf : Path × Value) (leaves : List (Path × Value)) :
    source.ignoredNames (leaf :: leaves) =
      source.ignoredNames [leaf] ++ source.ignoredNames leaves := by
  rw [← List.singleton_append, ignoredNames, List.filter_append, List.map_append]
  rfl

def leavesAfter (source : Source) (outcome : Outcome) : List (Path × Value) → List (Path × Value)
  | [] => []
  | leaf :: leaves =>
    (leaf.1, (source.applyLeaf leaf.1 leaf.2 outcome).1) ::
      leavesAfter source (source.visit outcome leaf) leaves

theorem leavesAfter_append (others : List (Path × Value)) :
    source.leavesAfter outcome (leaves ++ others) =
      source.leavesAfter outcome leaves ++
        source.leavesAfter (leaves.foldl source.visit outcome) others := by
  induction leaves generalizing outcome with
  | nil => rfl
  | cons leaf leaves ih => rw [List.cons_append, leavesAfter, leavesAfter, ih]; rfl

theorem leavesAfter_of_failure {e : OverrideError} (h : outcome.failure = some e) :
    source.leavesAfter outcome leaves = leaves := by
  induction leaves with
  | nil => rfl
  | cons leaf leaves ih =>
      rw [leavesAfter, visit, applyLeaf_of_failure h, ih]

theorem leavesAfter_of_converts (h : outcome.failure = none)
    (hconverts : ∀ leaf ∈ leaves, source.conflict? leaf = none) :
    List.Forall₂ source.LeafBecomes leaves (source.leavesAfter outcome leaves) ∧
      leaves.foldl source.visit outcome =
        ⟨outcome.applied ++ source.appliedNames leaves,
          outcome.ignored ++ source.ignoredNames leaves, none⟩ := by
  induction leaves generalizing outcome with
  | nil =>
      refine ⟨.nil, ?_⟩
      simp [appliedNames, ignoredNames, ← h]
  | cons leaf leaves ih =>
      obtain ⟨hfirst, hrest⟩ := List.forall_mem_cons.1 hconverts
      obtain ⟨hbecomes, hvisit⟩ := applyLeaf_of_converts h hfirst
      have hvisited : (source.visit outcome leaf).failure = none := by rw [visit, hvisit]
      obtain ⟨hall, hfold⟩ := ih hvisited hrest
      refine ⟨.cons ⟨rfl, hbecomes⟩ hall, ?_⟩
      rw [List.foldl_cons, hfold, visit, hvisit, appliedNames_cons leaf leaves,
        ignoredNames_cons leaf leaves, ← List.append_assoc, ← List.append_assoc]

/-- Nothing happens at the first leaf whose variable does not convert, nor after it. -/
theorem leavesAfter_of_conflict {before : List (Path × Value)} {leaf : Path × Value}
    {e : OverrideError} (h : outcome.failure = none)
    (hbefore : ∀ earlier ∈ before, source.conflict? earlier = none)
    (hleaf : source.conflict? leaf = some e) (after : List (Path × Value)) :
    source.leavesAfter outcome (before ++ leaf :: after) =
        source.leavesAfter outcome before ++ leaf :: after ∧
      (before ++ leaf :: after).foldl source.visit outcome =
        ⟨outcome.applied ++ source.appliedNames before,
          outcome.ignored ++ source.ignoredNames before, some e⟩ := by
  obtain ⟨-, hfold⟩ := leavesAfter_of_converts h hbefore
  have hvisit := applyLeaf_of_conflict (congrArg Outcome.failure hfold) hleaf
  rw [leavesAfter_append, List.foldl_append, List.foldl_cons, leavesAfter, visit, hvisit, hfold]
  exact ⟨congrArg (_ ++ leaf :: ·) (leavesAfter_of_failure rfl), foldl_visit_of_failure rfl⟩

theorem isLeaf_applyLeaf (hv : v.isLeaf) : (source.applyLeaf path v outcome).1.isLeaf := by
  rcases applyLeaf_fst path v outcome with h | ⟨text, h⟩
  · rw [h]
    exact hv
  · exact isLeaf_of_replaceLeaf h

theorem valueLeaves_applyLeaf (hv : v.isLeaf) :
    valueLeaves path (source.applyLeaf path v outcome).1 =
      source.leavesAfter outcome (valueLeaves path v) := by
  rw [valueLeaves_of_isLeaf (isLeaf_applyLeaf hv), valueLeaves_of_isLeaf hv]
  rfl

theorem isTableArray_applyTables {items : List Value} {i : Nat} :
    Value.isTableArray (.array (source.applyTables path i outcome items).1) =
      Value.isTableArray (.array items) := by
  cases items with
  | nil => rfl
  | cons first rest => cases first <;> rfl

mutual

theorem valueLeaves_applyValue {path : Path} : ∀ (v : Value) (outcome : Outcome),
    valueLeaves path (source.applyValue path outcome v).1 =
      source.leavesAfter outcome (valueLeaves path v)
  | .table entries, outcome => entryLeaves_applyEntries entries outcome
  | .array items, outcome => by
      by_cases htables : Value.isTableArray (.array items)
      · rw [applyValue, if_pos htables]
        dsimp only
        rw [valueLeaves, valueLeaves, isTableArray_applyTables, if_pos htables, if_pos htables]
        exact tableLeaves_applyTables items outcome
      · rw [applyValue, if_neg htables]
        refine valueLeaves_applyLeaf ?_
        simpa [Value.isLeaf, Value.isTable] using htables
  | .string _, outcome | .integer _, outcome | .float _, outcome | .boolean _, outcome
  | .moment _, outcome | .absent, outcome => valueLeaves_applyLeaf rfl

theorem entryLeaves_applyEntries {path : Path} : ∀ (entries : Table) (outcome : Outcome),
    entryLeaves path (source.applyEntries path outcome entries).1 =
      source.leavesAfter outcome (entryLeaves path entries)
  | [], _ => rfl
  | (key, v) :: rest, outcome => by
      rw [entryLeaves, leavesAfter_append, ← applyValue_snd v outcome]
      exact congrArg₂ (· ++ ·) (valueLeaves_applyValue v outcome) (entryLeaves_applyEntries rest _)

theorem tableLeaves_applyTables {path : Path} {i : Nat} :
    ∀ (items : List Value) (outcome : Outcome),
      tableLeaves path i (source.applyTables path i outcome items).1 =
        source.leavesAfter outcome (tableLeaves path i items)
  | [], _ => rfl
  | .table entries :: rest, outcome => by
      rw [tableLeaves, leavesAfter_append, ← applyEntries_snd entries outcome]
      exact congrArg₂ (· ++ ·) (entryLeaves_applyEntries entries outcome)
        (tableLeaves_applyTables rest _)
  | .string _ :: rest, outcome | .integer _ :: rest, outcome | .float _ :: rest, outcome
  | .boolean _ :: rest, outcome | .moment _ :: rest, outcome | .array _ :: rest, outcome
  | .absent :: rest, outcome => tableLeaves_applyTables rest outcome

end

theorem allows_true : Allows fun _ _ => True where
  kept _ _ := trivial
  replaced _ _ _ _ _ := trivial

/-- A pass leaves the shape of a configuration as it is, also if it fails. -/
theorem sameShape_apply (source : Source) (applied : List String) (tree : Table) :
    tree.SameShape (source.apply applied tree).1 :=
  source.alike_apply allows_true applied tree

/-- What becomes of the leaves of a configuration and what is reported, if all variables convert. -/
theorem leaves_apply {source : Source} {tree : Table}
    (h : ∀ leaf ∈ entryLeaves [] tree, source.conflict? leaf = none) (applied : List String) :
    List.Forall₂ source.LeafBecomes (entryLeaves [] tree)
        (entryLeaves [] (source.apply applied tree).1) ∧
      (source.apply applied tree).2 =
        ⟨applied ++ source.appliedNames (entryLeaves [] tree),
          source.ignoredNames (entryLeaves [] tree), none⟩ := by
  have hstart : (Outcome.start applied).failure = none := rfl
  obtain ⟨hleaves, houtcome⟩ := leavesAfter_of_converts hstart h
  rw [apply, entryLeaves_applyEntries, applyEntries_snd]
  exact ⟨hleaves, houtcome⟩

theorem failure_apply_eq_none_iff {source : Source} {applied : List String} {tree : Table} :
    (source.apply applied tree).2.failure = none ↔
      ∀ leaf ∈ entryLeaves [] tree, source.conflict? leaf = none := by
  rw [failure_apply, List.findSome?_eq_none_iff]

/-- A pass that ends well leaves the shape of a configuration as it is, and of its leaves only those
whose variables are set are replaced. These variables are noted in document order. -/
theorem apply_replaces_leaves {source : Source} {applied : List String} {tree : Table}
    (h : (source.apply applied tree).2.failure = none) :
    tree.SameShape (source.apply applied tree).1 ∧
      List.Forall₂ source.LeafBecomes (entryLeaves [] tree)
        (entryLeaves [] (source.apply applied tree).1) ∧
      (source.apply applied tree).2 =
        ⟨applied ++ source.appliedNames (entryLeaves [] tree),
          source.ignoredNames (entryLeaves [] tree), none⟩ :=
  ⟨sameShape_apply source applied tree, leaves_apply (failure_apply_eq_none_iff.1 h) applied⟩

def deployment : Table :=
  [("name", .string "web"),
    ("hosts", .array [.table [("port", .integer 80)], .integer 7,
      .table [("port", .integer 81), ("on", .boolean true)]]),
    ("rates", .array [.integer 1]), ("tags", .array [])]

def relocation : Source :=
  ⟨"CONFIG", [("CONFIG_NAME", ""), ("CONFIG_HOSTS_2_PORT", "8080"), ("CONFIG_RATES", "2, 3"),
    ("CONFIG_TAGS", "a")]⟩

theorem apply_replaces_leaves_deployment :
    (relocation.apply ["APPLIED"] deployment).2.failure = none ∧
      deployment.SameShape (relocation.apply ["APPLIED"] deployment).1 ∧
      List.Forall₂ relocation.LeafBecomes (entryLeaves [] deployment)
        (entryLeaves [] (relocation.apply ["APPLIED"] deployment).1) ∧
      (relocation.apply ["APPLIED"] deployment).2 =
        ⟨["APPLIED"] ++ relocation.appliedNames (entryLeaves [] deployment),
          relocation.ignoredNames (entryLeaves [] deployment), none⟩ := by
  have h : (relocation.apply ["APPLIED"] deployment).2.failure = none := by decide +kernel
  exact ⟨h, apply_replaces_leaves h⟩

/-- How a pass ends that fails at a leaf. The leaves before it have become what their variables say,
the leaf and those after it are what they were. -/
structure BreaksOff (source : Source) (applied : List String) (tree : Table) (e : OverrideError)
    (before : List (Path × Value)) (leaf : Path × Value) (after : List (Path × Value)) : Prop where
  split : entryLeaves [] tree = before ++ leaf :: after
  converts : ∀ earlier ∈ before, ∀ cause, ¬ source.Conflicts earlier cause
  conflicts : source.Conflicts leaf e.cause
  names : e.variableName = source.variableName leaf.1
  shape : tree.SameShape (source.apply applied tree).1
  leaves : ∃ replaced, entryLeaves [] (source.apply applied tree).1 = replaced ++ leaf :: after ∧
    List.Forall₂ source.LeafBecomes before replaced
  reports : (source.apply applied tree).2 =
    ⟨applied ++ source.appliedNames before, source.ignoredNames before, some e⟩

/-- A pass fails exactly if the variable of some leaf does not convert, and then at the first such
leaf. -/
theorem apply_breaks_off_iff (source : Source) (applied : List String) (tree : Table) :
    ((source.apply applied tree).2.failure.isSome ↔
        ∃ leaf ∈ entryLeaves [] tree, ∃ cause, source.Conflicts leaf cause) ∧
      ∀ e, (source.apply applied tree).2.failure = some e ↔
        ∃ before leaf after, source.BreaksOff applied tree e before leaf after := by
  constructor
  · rw [failure_apply, List.findSome?_isSome_iff]
    simp only [isSome_conflict?_iff]
  · intro e
    constructor
    · intro he
      rw [failure_apply] at he
      obtain ⟨before, leaf, after, hsplit, hleaf, hbefore⟩ := List.findSome?_eq_some_iff.1 he
      -- The leaves before the first conflict are replaced, and nothing from there on.
      have hstart : (Outcome.start applied).failure = none := rfl
      obtain ⟨hreplaced, -⟩ := leavesAfter_of_converts hstart hbefore
      obtain ⟨hleaves, houtcome⟩ := leavesAfter_of_conflict hstart hbefore hleaf after
      obtain ⟨hname, hconflicts⟩ := conflict?_eq_some_iff.1 hleaf
      refine ⟨before, leaf, after, hsplit, ?_, hconflicts, hname,
        sameShape_apply source applied tree,
        ⟨source.leavesAfter (.start applied) before, ?_, hreplaced⟩, ?_⟩
      · intro earlier hearlier
        exact conflict?_eq_none_iff.1 (hbefore earlier hearlier)
      · rw [apply, entryLeaves_applyEntries, hsplit]
        exact hleaves
      · rw [apply, applyEntries_snd, hsplit, houtcome]
        rfl
    · rintro ⟨before, leaf, after, h⟩
      exact congrArg Outcome.failure h.reports

def misprint : Source :=
  ⟨"CONFIG", [("CONFIG_HOSTS_0_PORT", "8080"), ("CONFIG_HOSTS_2_PORT", "8o81"),
    ("CONFIG_RATES", "2, 3")]⟩

theorem apply_breaks_off_deployment : ∃ before leaf after, misprint.BreaksOff [] deployment
    ⟨"CONFIG_HOSTS_2_PORT", .expectedInteger⟩ before leaf after := by
  have h : (misprint.apply [] deployment).2.failure =
      some ⟨"CONFIG_HOSTS_2_PORT", .expectedInteger⟩ := by
    decide +kernel
  exact ((apply_breaks_off_iff misprint [] deployment).2 _).1 h

end Source
end Override
end TypedConfig
