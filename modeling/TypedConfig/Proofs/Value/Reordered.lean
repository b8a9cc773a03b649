import TypedConfig.Proofs.Value.Keys

namespace TypedConfig

mutual

/-- The same value but for the order of the keys in its tables, at any depth. -/
inductive Value.Reordered : Value → Value → Prop
  | refl (v : Value) : Value.Reordered v v
  | array {vs ws : List Value} (h : ItemsReordered vs ws) : Value.Reordered (.array vs) (.array ws)
  | table {es fs gs : List (String × Value)} (h : EntriesReordered es fs) (hperm : fs.Perm gs) :
      Value.Reordered (.table es) (.table gs)

inductive ItemsReordered : List Value → List Value → Prop
  | nil : ItemsReordered [] []
  | cons {v w : Value} {vs ws : List Value} (h : Value.Reordered v w)
      (hrest : ItemsReordered vs ws) : ItemsReordered (v :: vs) (w :: ws)

inductive EntriesReordered : List (String × Value) → List (String × Value) → Prop
  | nil : EntriesReordered [] []
  | cons {key : String} {v w : Value} {es fs : List (String × Value)} (h : Value.Reordered v w)
      (hrest : EntriesReordered es fs) : EntriesReordered ((key, v) :: es) ((key, w) :: fs)

end

def Table.Reordered (t u : Table) : Prop :=
  (Value.table t).Reordered (.table u)

theorem EntriesReordered.keys_eq {es fs : Table} (h : EntriesReordered es fs) :
    Table.keys fs = Table.keys es := by
  induction es generalizing fs with
  | nil =>
      cases h
      rfl
  | cons entry es ih =>
      cases h with
      | cons h hrest => exact congrArg (_ :: ·) (ih hrest)

mutual

theorem Value.Reordered.sorted_eq :
    ∀ {v w : Value}, v.Reordered w → v.KeysDistinct → v.sorted = w.sorted
  | _, _, .refl _, _ => rfl
  | _, _, .array h, hkeys => congrArg Value.array (h.sortedItems_eq hkeys)
  | _, _, .table h hperm, ⟨hkeys, hentries⟩ => by
      have hsorted := hperm.map fun e => (e.1, e.2.sorted)
      rw [← Value.sortedEntries_eq_map, ← Value.sortedEntries_eq_map] at hsorted
      rw [Value.sorted, Value.sorted, h.sortedEntries_eq hentries]
      refine congrArg Value.table (Table.sortByKey_eq_of_perm ?_ hsorted)
      rw [Table.keys_sortedEntries, h.keys_eq]
      exact hkeys

theorem ItemsReordered.sortedItems_eq : ∀ {vs ws : List Value}, ItemsReordered vs ws →
    Value.ItemKeysDistinct vs → Value.sortedItems vs = Value.sortedItems ws
  | _, _, .nil, _ => rfl
  | _, _, .cons h hrest, ⟨hv, hvs⟩ =>
      congrArg₂ List.cons (h.sorted_eq hv) (hrest.sortedItems_eq hvs)

theorem EntriesReordered.sortedEntries_eq : ∀ {es fs : Table}, EntriesReordered es fs →
    Value.EntryKeysDistinct es → Value.sortedEntries es = Value.sortedEntries fs
  | _, _, .nil, _ => rfl
  | _, _, .cons h hrest, ⟨hv, hes⟩ =>
      congrArg₂ List.cons (congrArg (Prod.mk _) (h.sorted_eq hv)) (hrest.sortedEntries_eq hes)

end

theorem Table.Reordered.sorted_eq {t u : Table} (h : t.Reordered u) (hkeys : t.KeysDistinct) :
    t.sorted = u.sorted :=
  Value.table.inj (Value.Reordered.sorted_eq h hkeys)

end TypedConfig
