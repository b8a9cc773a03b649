import TypedConfig.Proofs.Value.Sorted
import Mathlib.Data.List.Nodup

namespace TypedConfig

mutual

def Value.KeysDistinct : Value → Prop
  | .array items => Value.ItemKeysDistinct items
  | .table entries => (Table.keys entries).Nodup ∧ Value.EntryKeysDistinct entries
  | _ => True

def Value.ItemKeysDistinct : List Value → Prop
  | [] => True
  | v :: rest => v.KeysDistinct ∧ Value.ItemKeysDistinct rest

def Value.EntryKeysDistinct : List (String × Value) → Prop
  | [] => True
  | (_, v) :: rest => v.KeysDistinct ∧ Value.EntryKeysDistinct rest

end

mutual

def Value.decidableKeysDistinct : (v : Value) → Decidable v.KeysDistinct
  | .array items => Value.decidableItemKeysDistinct items
  | .table entries =>
    have := Value.decidableEntryKeysDistinct entries
    inferInstanceAs (Decidable ((Table.keys entries).Nodup ∧ Value.EntryKeysDistinct entries))
  | .string _ | .integer _ | .float _ | .boolean _ | .moment _ | .absent => .isTrue trivial

def Value.decidableItemKeysDistinct :
    (items : List Value) → Decidable (Value.ItemKeysDistinct items)
  | [] => .isTrue trivial
  | v :: rest =>
    have := Value.decidableKeysDistinct v
    have := Value.decidableItemKeysDistinct rest
    inferInstanceAs (Decidable (v.KeysDistinct ∧ Value.ItemKeysDistinct rest))

def Value.decidableEntryKeysDistinct :
    (entries : List (String × Value)) → Decidable (Value.EntryKeysDistinct entries)
  | [] => .isTrue trivial
  | (_, v) :: rest =>
    have := Value.decidableKeysDistinct v
    have := Value.decidableEntryKeysDistinct rest
    inferInstanceAs (Decidable (v.KeysDistinct ∧ Value.EntryKeysDistinct rest))

end

namespace Value

theorem keysDistinct_array {items : List Value} :
    (Value.array items).KeysDistinct ↔ ∀ v ∈ items, v.KeysDistinct := by
  rw [KeysDistinct]
  induction items with
  | nil => simp [ItemKeysDistinct]
  | cons first rest ih => rw [ItemKeysDistinct, ih, List.forall_mem_cons]

end Value

namespace Table

def KeysDistinct (t : Table) : Prop :=
  (Value.table t).KeysDistinct

instance (t : Table) : Decidable t.KeysDistinct :=
  Value.decidableKeysDistinct (.table t)

variable {t : Table} {key : String} {v : Value}

theorem keysDistinct_iff :
    t.KeysDistinct ↔ (Table.keys t).Nodup ∧ ∀ e ∈ t, e.2.KeysDistinct := by
  have hentries (t : Table) : Value.EntryKeysDistinct t ↔ ∀ e ∈ t, e.2.KeysDistinct := by
    induction t with
    | nil => simp [Value.EntryKeysDistinct]
    | cons e t ih => rw [Value.EntryKeysDistinct, ih, List.forall_mem_cons]
  rw [KeysDistinct, Value.KeysDistinct, hentries]

theorem keysDistinct_nil : KeysDistinct [] :=
  keysDistinct_iff.2 ⟨List.nodup_nil, List.forall_mem_nil _⟩

theorem KeysDistinct.of_mem (h : t.KeysDistinct) (hmem : (key, v) ∈ t) : v.KeysDistinct :=
  (keysDistinct_iff.1 h).2 _ hmem

theorem KeysDistinct.lookup_eq (h : t.KeysDistinct) (hmem : (key, v) ∈ t) :
    t.lookup key = some v := by
  have hkeys : (Table.keys t).Nodup := h.1
  clear h
  induction t with
  | nil => cases hmem
  | cons entry t ih =>
      obtain ⟨hfirst, hrest⟩ := List.nodup_cons.1 hkeys
      obtain rfl | hmem := List.mem_cons.1 hmem
      · exact List.lookup_cons_self
      · have hne : key ≠ entry.1 := by
          rintro rfl
          exact hfirst (List.mem_map.2 ⟨_, hmem, rfl⟩)
        rw [List.lookup_cons, beq_eq_false_iff_ne.2 hne]
        exact ih hmem hrest

theorem mem_of_lookup (h : t.lookup key = some v) : (key, v) ∈ t := by
  induction t with
  | nil => cases h
  | cons entry t ih =>
      rw [List.lookup_cons] at h
      split at h
      · next hkey =>
        cases h
        rw [eq_of_beq hkey]
        exact List.mem_cons_self
      · exact List.mem_cons_of_mem _ (ih h)

theorem not_mem_keys_of_lookup (h : t.lookup key = none) : key ∉ Table.keys t := by
  induction t with
  | nil => exact List.not_mem_nil
  | cons entry t ih =>
      rw [List.lookup_cons] at h
      split at h
      · cases h
      · next hkey =>
        exact List.not_mem_cons_of_ne_of_not_mem (beq_eq_false_iff_ne.1 hkey) (ih h)

theorem KeysDistinct.append (h : t.KeysDistinct) (hnew : t.lookup key = none)
    (hv : v.KeysDistinct) : KeysDistinct (t ++ [(key, v)]) := by
  obtain ⟨hkeys, hvalues⟩ := keysDistinct_iff.1 h
  refine keysDistinct_iff.2 ⟨?_, List.forall_mem_append.2 ⟨hvalues, ?_⟩⟩
  · rw [keys, List.map_append, List.map_singleton, ← List.concat_eq_append]
    exact .concat (not_mem_keys_of_lookup hnew) hkeys
  · exact List.forall_mem_singleton.2 hv

theorem mem_insert {e : String × Value} (h : e ∈ t.insert key v) : e ∈ t ∨ e = (key, v) := by
  induction t with
  | nil => exact .inr (List.mem_singleton.1 h)
  | cons first t ih =>
      rw [insert] at h
      split at h
      · next hkey =>
        obtain rfl | h := List.mem_cons.1 h
        · exact .inr (hkey ▸ rfl)
        · exact .inl (List.mem_cons_of_mem _ h)
      · obtain rfl | h := List.mem_cons.1 h
        · exact .inl List.mem_cons_self
        · exact (ih h).imp_left (List.mem_cons_of_mem _)

theorem keys_insert (t : Table) (key : String) (v : Value) : Table.keys (t.insert key v) =
    if key ∈ Table.keys t then Table.keys t else Table.keys t ++ [key] := by
  induction t with
  | nil => rfl
  | cons first t ih =>
      obtain ⟨k, w⟩ := first
      rw [insert]
      split
      · next hkey =>
        rw [if_pos (hkey ▸ List.mem_cons_self)]
        rfl
      · next hne =>
        have hmem : key ∈ k :: Table.keys t ↔ key ∈ Table.keys t := by
          rw [List.mem_cons, or_iff_right (Ne.symm hne)]
        change k :: Table.keys (Table.insert key v t) = if key ∈ k :: Table.keys t then _ else _
        rw [ih]
        simp only [hmem]
        exact apply_ite (k :: ·) _ _ _

theorem KeysDistinct.insert (h : t.KeysDistinct) (hv : v.KeysDistinct) :
    (t.insert key v).KeysDistinct := by
  obtain ⟨hkeys, hvalues⟩ := keysDistinct_iff.1 h
  refine keysDistinct_iff.2 ⟨?_, fun e he => ?_⟩
  · rw [keys_insert]
    split
    · exact hkeys
    · next hnew =>
      rw [← List.concat_eq_append]
      exact .concat hnew hkeys
  · obtain he | rfl := mem_insert he
    · exact hvalues e he
    · exact hv

theorem keys_sortedEntries (t : Table) : Table.keys (Value.sortedEntries t) = Table.keys t := by
  rw [Value.sortedEntries_eq_map, keys, List.map_map]
  rfl

/-- Entries whose keys are distinct are put in one order, whichever they had. -/
theorem sortByKey_eq_of_perm {u : Table} (hkeys : (Table.keys t).Nodup) (h : t.Perm u) :
    sortByKey t = sortByKey u := by
  refine Sorting.sort_eq_of_perm keyLe_total keyLe_trans (fun e he f hf hle hge => ?_) h
  have hkey : e.1 = f.1 := String.le_antisymm (of_decide_eq_true hle) (of_decide_eq_true hge)
  exact List.inj_on_of_nodup_map hkeys he hf hkey

end Table

theorem Table.sizeOf_lt_of_lookup {t : Table} {key : String} {v : Value}
    (h : t.lookup key = some v) : sizeOf v < sizeOf (Value.table t) := by
  have hlt := List.sizeOf_lt_of_mem (mem_of_lookup h)
  simp only [Prod.mk.sizeOf_spec, Value.table.sizeOf_spec] at hlt ⊢
  omega

/-- Induction over two values side by side, as far as both of them are tables. -/
theorem Value.pair_induction {P : Value → Value → Prop}
    (tables : ∀ first second : Table, first.KeysDistinct → second.KeysDistinct →
      (∀ key v w, first.lookup key = some v → second.lookup key = some w → P v w) →
      P (.table first) (.table second))
    (others : ∀ v w : Value, v.isTable = false ∨ w.isTable = false → P v w)
    {v w : Value} (hv : v.KeysDistinct) (hw : w.KeysDistinct) : P v w := by
  cases hkind : v.isTable && w.isTable with
  | false => exact others v w (Bool.and_eq_false_iff.1 hkind)
  | true =>
      cases v with
      | table first =>
          cases w with
          | table second =>
              refine tables first second hv hw fun key v w hleft hright => ?_
              have hsmaller := Table.sizeOf_lt_of_lookup hleft
              exact pair_induction tables others
                (Table.KeysDistinct.of_mem hv (Table.mem_of_lookup hleft))
                (Table.KeysDistinct.of_mem hw (Table.mem_of_lookup hright))
          | _ => cases hkind
      | _ => cases hkind
termination_by sizeOf v

end TypedConfig
