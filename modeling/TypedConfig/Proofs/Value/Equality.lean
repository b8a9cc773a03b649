import TypedConfig.Proofs.Value.Keys
import TypedConfig.Value.Equality

namespace TypedConfig

theorem Binary64.equal_comm : ∀ x y : Binary64, x.equal y = y.equal x
  | .finite _, .finite _ | .infinite _, .infinite _ => BEq.comm
  | .nan, .nan | .nan, .infinite _ | .nan, .finite _ | .infinite _, .nan | .infinite _, .finite _
  | .finite _, .nan | .finite _, .infinite _ => rfl

theorem Calendar.Moment.equal_comm : ∀ a b : Moment, a.equal b = b.equal a
  | .date _, .date _ | .clock _, .clock _ | .stamp _ _ (some _), .stamp _ _ (some _) => BEq.comm
  | .stamp _ _ none, .stamp _ _ none => congrArg₂ and BEq.comm BEq.comm
  | .stamp _ _ none, .stamp _ _ (some _) | .stamp _ _ (some _), .stamp _ _ none
  | .date _, .clock _ | .clock _, .date _
  | .date _, .stamp _ _ none | .stamp _ _ none, .date _
  | .date _, .stamp _ _ (some _) | .stamp _ _ (some _), .date _
  | .clock _, .stamp _ _ none | .stamp _ _ none, .clock _
  | .clock _, .stamp _ _ (some _) | .stamp _ _ (some _), .clock _ => rfl

namespace Value

variable {t u : Table}

theorem hasKey_iff_mem_keys {key : String} : hasKey t key ↔ key ∈ Table.keys t := by
  rw [hasKey, Option.isSome_iff_exists]
  constructor
  · rintro ⟨v, hv⟩
    exact List.mem_map_of_mem (Table.mem_of_lookup hv)
  · intro h
    by_contra hnone
    exact Table.not_mem_keys_of_lookup (Option.eq_none_iff_forall_ne_some.2
      fun v hv => hnone ⟨v, hv⟩) h

theorem equalEntries_iff : equalEntries u t ↔
    ∀ e ∈ t, ∃ w, u.lookup e.1 = some w ∧ e.2.equal w := by
  induction t with
  | nil => simp [equalEntries]
  | cons e t ih =>
      rw [equalEntries, Bool.and_eq_true, ih, List.forall_mem_cons]
      refine and_congr_left' ?_
      cases u.lookup e.1 <;> simp

/-- Tables are equal if they have the same keys, with equal values. -/
theorem equal_table_iff (ht : t.KeysDistinct) : (table t).equal (table u) ↔
    (∀ key, key ∈ Table.keys t ↔ key ∈ Table.keys u) ∧
      ∀ key v w, t.lookup key = some v → u.lookup key = some w → v.equal w := by
  rw [equal, Bool.and_eq_true, equalEntries_iff, List.all_eq_true]
  constructor
  · rintro ⟨hequal, hkeys⟩
    refine ⟨fun key => ⟨fun hkey => ?_, fun hkey => ?_⟩, fun key v w hv hw => ?_⟩
    · obtain ⟨e, he, rfl⟩ := List.mem_map.1 hkey
      obtain ⟨w, hw, -⟩ := hequal e he
      exact hasKey_iff_mem_keys.1 (Option.isSome_iff_exists.2 ⟨w, hw⟩)
    · obtain ⟨e, he, rfl⟩ := List.mem_map.1 hkey
      exact hasKey_iff_mem_keys.1 (hkeys e he)
    · obtain ⟨w', hw', hvw⟩ := hequal (key, v) (Table.mem_of_lookup hv)
      rw [hw] at hw'
      cases hw'
      exact hvw
  · rintro ⟨hkeys, hequal⟩
    refine ⟨fun e he => ?_, fun e he => ?_⟩
    · have hkey : hasKey u e.1 := hasKey_iff_mem_keys.2 ((hkeys e.1).1 (List.mem_map_of_mem he))
      obtain ⟨w, hw⟩ := Option.isSome_iff_exists.1 hkey
      exact ⟨w, hw, hequal e.1 e.2 w (ht.lookup_eq he) hw⟩
    · exact hasKey_iff_mem_keys.2 ((hkeys e.1).2 (List.mem_map_of_mem he))

mutual

theorem equal_comm : ∀ {v w : Value}, v.KeysDistinct → w.KeysDistinct → v.equal w = w.equal v
  | .table t, w, ht, hw => by
      cases w with
      | table u =>
          -- Each looks up the keys of the other. As no key comes twice, both find the same pairs.
          have hvalues := entries_equal_comm ht.2
          rw [Bool.eq_iff_iff, equal_table_iff ht, equal_table_iff hw]
          refine and_congr (forall_congr' fun key => Iff.comm) (forall_congr' fun key => ?_)
          constructor
          · intro h v w hv hw'
            have hmem := Table.mem_of_lookup hw'
            rw [← hvalues _ hmem v (Table.KeysDistinct.of_mem hw (Table.mem_of_lookup hv))]
            exact h w v hw' hv
          · intro h v w hv hw'
            have hmem := Table.mem_of_lookup hv
            rw [hvalues _ hmem w (Table.KeysDistinct.of_mem hw (Table.mem_of_lookup hw'))]
            exact h w v hw' hv
      | _ => rfl
  | .array vs, w, hvs, hw => by
      cases w with
      | array ws => exact items_equal_comm hvs hw
      | _ => rfl
  | .string _, w, _, _ => by
      cases w with
      | string _ => exact BEq.comm
      | _ => rfl
  | .integer _, w, _, _ => by
      cases w with
      | integer _ => exact BEq.comm
      | _ => rfl
  | .float _, w, _, _ => by
      cases w with
      | float _ => exact Binary64.equal_comm _ _
      | _ => rfl
  | .boolean _, w, _, _ => by
      cases w with
      | boolean _ => exact BEq.comm
      | _ => rfl
  | .moment _, w, _, _ => by
      cases w with
      | moment _ => exact Calendar.Moment.equal_comm _ _
      | _ => rfl
  | .absent, w, _, _ => by cases w <;> rfl

theorem items_equal_comm : ∀ {vs ws : List Value}, ItemKeysDistinct vs → ItemKeysDistinct ws →
    equalItems vs ws = equalItems ws vs
  | [], [], _, _ | [], _ :: _, _, _ | _ :: _, [], _, _ => rfl
  | v :: vs, w :: ws, ⟨hv, hvs⟩, ⟨hw, hws⟩ => by
      rw [equalItems, equalItems, equal_comm hv hw, items_equal_comm hvs hws]

theorem entries_equal_comm : ∀ {t : Table}, EntryKeysDistinct t → ∀ e ∈ t, ∀ w : Value,
    w.KeysDistinct → e.2.equal w = w.equal e.2
  | [], _, _, he, _, _ => nomatch he
  | (key, v) :: t, ⟨hv, ht⟩, e, he, w, hw => by
      obtain rfl | he := List.mem_cons.1 he
      · exact equal_comm hv hw
      · exact entries_equal_comm ht e he w hw

end

end Value

theorem Binary64.equal_self_iff : ∀ x : Binary64, x.equal x ↔ x ≠ .nan
  | .finite _ | .infinite _ => iff_of_true BEq.rfl nofun
  | .nan => iff_of_false nofun fun h => h rfl

theorem Calendar.Moment.equal_self : ∀ m : Moment, m.equal m
  | .date _ | .clock _ | .stamp _ _ (some _) => BEq.rfl
  | .stamp _ _ none => Bool.and_eq_true_iff.2 ⟨BEq.rfl, BEq.rfl⟩

mutual

def Value.NanFree : Value → Prop
  | .float x => x ≠ .nan
  | .array items => Value.ItemsNanFree items
  | .table entries => Value.EntriesNanFree entries
  | _ => True

def Value.ItemsNanFree : List Value → Prop
  | [] => True
  | v :: rest => v.NanFree ∧ Value.ItemsNanFree rest

def Value.EntriesNanFree : List (String × Value) → Prop
  | [] => True
  | (_, v) :: rest => v.NanFree ∧ Value.EntriesNanFree rest

end

namespace Value

theorem entriesNanFree_iff {t : Table} : EntriesNanFree t ↔ ∀ e ∈ t, e.2.NanFree := by
  induction t with
  | nil => simp [EntriesNanFree]
  | cons e t ih => rw [EntriesNanFree, ih, List.forall_mem_cons]

mutual

theorem equal_self_iff : ∀ {v : Value}, v.KeysDistinct → (v.equal v ↔ v.NanFree)
  | .table t, ht => by
      have hvalues := entries_equal_self_iff ht.2
      rw [equal_table_iff ht, NanFree, entriesNanFree_iff]
      constructor
      · rintro ⟨-, h⟩ e he
        have hkey := Table.KeysDistinct.lookup_eq ht he
        exact (hvalues e he).1 (h e.1 e.2 e.2 hkey hkey)
      · intro h
        refine ⟨fun key => Iff.rfl, fun key v w hv hw => ?_⟩
        obtain rfl := Option.some.inj (hv.symm.trans hw)
        have hmem := Table.mem_of_lookup hv
        exact (hvalues _ hmem).2 (h _ hmem)
  | .array _, hvs => items_equal_self_iff hvs
  | .float x, _ => Binary64.equal_self_iff x
  | .moment m, _ => iff_of_true m.equal_self trivial
  | .string _, _ | .integer _, _ | .boolean _, _ => iff_of_true BEq.rfl trivial
  | .absent, _ => iff_of_true rfl trivial

theorem items_equal_self_iff : ∀ {vs : List Value}, ItemKeysDistinct vs →
    (equalItems vs vs ↔ ItemsNanFree vs)
  | [], _ => iff_of_true rfl trivial
  | v :: vs, ⟨hv, hvs⟩ => by
      rw [equalItems, Bool.and_eq_true, equal_self_iff hv, items_equal_self_iff hvs, ItemsNanFree]

theorem entries_equal_self_iff : ∀ {t : Table}, EntryKeysDistinct t → ∀ e ∈ t,
    (e.2.equal e.2 ↔ e.2.NanFree)
  | [], _, _, he => nomatch he
  | (_, v) :: t, ⟨hv, ht⟩, e, he => by
      obtain rfl | he := List.mem_cons.1 he
      · exact equal_self_iff hv
      · exact entries_equal_self_iff ht e he

end

end Value

end TypedConfig
