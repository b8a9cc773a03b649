import TypedConfig.Proofs.Override.Leaves
import TypedConfig.Proofs.Value.Kind
import TypedConfig.Proofs.Value.Reordered

namespace TypedConfig.Override.Source

/-- What stands in the place of a leaf when all variables convert. -/
def replacedLeaf (source : Source) (path : Path) (v : Value) : Value :=
  match lookUp source.environment (source.variableName path) with
  | none => v
  | some text =>
    match replaceLeaf text v with
    | .ok (some w) => w
    | _ => v

mutual

def replaced (source : Source) (path : Path) : Value → Value
  | .table entries => .table (replacedEntries source path entries)
  | .array items =>
    if Value.isTableArray (.array items) then .array (replacedItems source path 0 items)
    else source.replacedLeaf path (.array items)
  | v => source.replacedLeaf path v

def replacedEntries (source : Source) (path : Path) : List (String × Value) → Table
  | [] => []
  | (key, v) :: rest =>
    (key, replaced source (path ++ [.key key]) v) :: replacedEntries source path rest

def replacedItems (source : Source) (path : Path) (i : Nat) : List Value → List Value
  | [] => []
  | v :: rest => replacedItem source path i v :: replacedItems source path (i + 1) rest

def replacedItem (source : Source) (path : Path) (i : Nat) : Value → Value
  | .table entries => .table (replacedEntries source (path ++ [.index i]) entries)
  | v => v

end

variable {source : Source} {path : Path} {i : Nat}

theorem replacedEntries_eq_map (entries : Table) : source.replacedEntries path entries =
    entries.map fun e => (e.1, source.replaced (path ++ [.key e.1]) e.2) := by
  induction entries with
  | nil => rfl
  | cons entry entries ih => rw [replacedEntries, ih, List.map_cons]

theorem replaced_of_isLeaf {v : Value} (h : v.isLeaf) :
    source.replaced path v = source.replacedLeaf path v := by
  cases v with
  | table entries => cases h
  | array items =>
      rw [replaced, if_neg]
      simpa [Value.isLeaf, Value.isTable] using h
  | _ => rfl

theorem isLeaf_replacedLeaf {v : Value} (h : v.isLeaf) : (source.replacedLeaf path v).isLeaf := by
  unfold replacedLeaf
  split
  · exact h
  · split
    · next hreplace => exact isLeaf_of_replaceLeaf hreplace
    · exact h

theorem failure_eq_none_of_foldl {leaves : List (Path × Value)} {outcome : Outcome}
    (h : (leaves.foldl source.visit outcome).failure = none) : outcome.failure = none := by
  rw [failure_foldl_visit, Option.or_eq_none_iff] at h
  exact h.1

theorem applyLeaf_fst_eq {v : Value} {outcome : Outcome}
    (h : (source.applyLeaf path v outcome).2.failure = none) :
    (source.applyLeaf path v outcome).1 = source.replacedLeaf path v := by
  have hvisited : ([(path, v)].foldl source.visit outcome).failure = none := h
  have hfailure := failure_eq_none_of_foldl hvisited
  unfold applyLeaf at h ⊢
  unfold replacedLeaf
  cases hset : lookUp source.environment (source.variableName path) with
  | none => simp only [hfailure, hset]
  | some text =>
      simp only [hfailure, hset]
      cases replaceLeaf text v with
      | error cause => rfl
      | ok replaced => cases replaced <;> rfl

mutual

theorem applyValue_fst {path : Path} : ∀ (v : Value) {outcome : Outcome},
    (source.applyValue path outcome v).2.failure = none →
      (source.applyValue path outcome v).1 = source.replaced path v
  | .table entries, outcome, h => by
      rw [applyValue] at h ⊢
      rw [replaced]
      exact congrArg Value.table (applyEntries_fst entries h)
  | .array items, outcome, h => by
      rw [applyValue] at h ⊢
      rw [replaced]
      split at h
      · next htables =>
        rw [if_pos htables, if_pos htables]
        exact congrArg Value.array (applyTables_fst items h)
      · next htables =>
        rw [if_neg htables, if_neg htables]
        exact applyLeaf_fst_eq h
  | .string _, _, h | .integer _, _, h | .float _, _, h | .boolean _, _, h | .moment _, _, h
  | .absent, _, h => applyLeaf_fst_eq h

theorem applyEntries_fst {path : Path} : ∀ (entries : Table) {outcome : Outcome},
    (source.applyEntries path outcome entries).2.failure = none →
      (source.applyEntries path outcome entries).1 = source.replacedEntries path entries
  | [], _, _ => rfl
  | (key, v) :: rest, outcome, h => by
      rw [applyEntries] at h ⊢
      have hfirst : (source.applyValue (path ++ [.key key]) outcome v).2.failure = none := by
        rw [applyEntries_snd] at h
        exact failure_eq_none_of_foldl h
      rw [replacedEntries]
      exact congrArg₂ (fun v rest => (key, v) :: rest) (applyValue_fst v hfirst)
        (applyEntries_fst rest h)

theorem applyTables_fst {path : Path} {i : Nat} : ∀ (items : List Value) {outcome : Outcome},
    (source.applyTables path i outcome items).2.failure = none →
      (source.applyTables path i outcome items).1 = source.replacedItems path i items
  | [], _, _ => rfl
  | .table entries :: rest, outcome, h => by
      rw [applyTables] at h ⊢
      have hfirst :
          (source.applyEntries (path ++ [.index i]) outcome entries).2.failure = none := by
        rw [applyTables_snd] at h
        exact failure_eq_none_of_foldl h
      rw [replacedItems, replacedItem]
      exact congrArg₂ (fun entries rest => Value.table entries :: rest)
        (applyEntries_fst entries hfirst) (applyTables_fst rest h)
  | .string _ :: rest, _, h | .integer _ :: rest, _, h | .float _ :: rest, _, h
  | .boolean _ :: rest, _, h | .moment _ :: rest, _, h | .array _ :: rest, _, h
  | .absent :: rest, _, h => congrArg (_ :: ·) (applyTables_fst rest h)

end

theorem apply_eq_replaced {applied : List String} {tree : Table}
    (h : (source.apply applied tree).2.failure = none) :
    (source.apply applied tree).1 = source.replacedEntries [] tree :=
  applyEntries_fst tree h

theorem convert_eq_of_reordered {v w : Value} (h : v.Reordered w) (text : String) :
    convert text v = convert text w := by
  cases h with
  | refl => rfl
  | array => rfl
  | table => rfl

/-- Of an array only the kind of its first element counts. -/
theorem replaceLeaf_eq_of_reordered {vs ws : List Value} (h : ItemsReordered vs ws)
    (text : String) : replaceLeaf text (.array vs) = replaceLeaf text (.array ws) := by
  cases h with
  | nil => rfl
  | cons h =>
      simp only [replaceLeaf, convertArray, convert_eq_of_reordered h]

theorem reordered_replacedLeaf {vs ws : List Value} (h : ItemsReordered vs ws) :
    (source.replacedLeaf path (.array vs)).Reordered (source.replacedLeaf path (.array ws)) := by
  unfold replacedLeaf
  cases lookUp source.environment (source.variableName path) with
  | none => exact .array h
  | some text =>
      dsimp only
      rw [replaceLeaf_eq_of_reordered h]
      split
      · exact .refl _
      · exact .array h

theorem isTableArray_eq_of_reordered {vs ws : List Value} (h : ItemsReordered vs ws) :
    Value.isTableArray (.array vs) = Value.isTableArray (.array ws) := by
  cases h with
  | nil => rfl
  | cons h =>
      rw [Value.isTableArray_cons, Value.isTableArray_cons]
      cases h with
      | refl => rfl
      | array => rfl
      | table => rfl

mutual

theorem reordered_replaced {path : Path} : ∀ {v w : Value}, v.Reordered w →
    (source.replaced path v).Reordered (source.replaced path w)
  | _, _, .refl _ => .refl _
  | _, _, .array h => by
      rw [replaced, replaced, isTableArray_eq_of_reordered h]
      split
      · exact .array (reordered_replacedItems h)
      · exact reordered_replacedLeaf h
  | _, _, .table h hperm => by
      rw [replaced, replaced]
      refine .table (reordered_replacedEntries h) ?_
      rw [replacedEntries_eq_map, replacedEntries_eq_map]
      exact hperm.map _

theorem reordered_replacedEntries {path : Path} : ∀ {es fs : Table}, EntriesReordered es fs →
    EntriesReordered (source.replacedEntries path es) (source.replacedEntries path fs)
  | _, _, .nil => .nil
  | _, _, .cons h hrest => .cons (reordered_replaced h) (reordered_replacedEntries hrest)

theorem reordered_replacedItems {path : Path} {i : Nat} : ∀ {vs ws : List Value},
    ItemsReordered vs ws →
      ItemsReordered (source.replacedItems path i vs) (source.replacedItems path i ws)
  | _, _, .nil => .nil
  | _, _, .cons h hrest => .cons (reordered_replacedItem h) (reordered_replacedItems hrest)

theorem reordered_replacedItem {path : Path} {i : Nat} : ∀ {v w : Value}, v.Reordered w →
    (source.replacedItem path i v).Reordered (source.replacedItem path i w)
  | _, _, .refl _ => .refl _
  | _, _, .array h => .array h
  | _, _, .table h hperm => by
      rw [replacedItem, replacedItem]
      refine .table (reordered_replacedEntries h) ?_
      rw [replacedEntries_eq_map, replacedEntries_eq_map]
      exact hperm.map _

end

theorem reordered_apply {applied applied' : List String} {t u : Table} (h : t.Reordered u)
    (ht : (source.apply applied t).2.failure = none)
    (hu : (source.apply applied' u).2.failure = none) :
    Table.Reordered (source.apply applied t).1 (source.apply applied' u).1 := by
  rw [apply_eq_replaced ht, apply_eq_replaced hu]
  exact reordered_replaced h

end TypedConfig.Override.Source
