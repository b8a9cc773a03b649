import TypedConfig.Proofs.Outcome
import TypedConfig.Proofs.Override.Leaves
import TypedConfig.Proofs.Value.Keys

namespace TypedConfig

variable {R : Value → Value → Prop}

theorem EntriesAlike.keys_eq {es fs : Table} (h : EntriesAlike R es fs) :
    Table.keys fs = Table.keys es := by
  have hall := entriesAlike_iff_forall₂.1 h
  clear h
  induction hall with
  | nil => rfl
  | cons h _ ih => exact congrArg₂ List.cons h.1 ih

mutual

theorem Value.Alike.keysDistinct
    (hR : ∀ v w : Value, R v w → v.KeysDistinct → w.KeysDistinct) :
    ∀ {v w : Value}, v.Alike R w → v.KeysDistinct → w.KeysDistinct
  | _, _, .leaf _ _ h, hv => hR _ _ h hv
  | _, _, .table h, ⟨hkeys, hentries⟩ => ⟨h.keys_eq ▸ hkeys, h.keysDistinct hR hentries⟩
  | _, _, .tables h hrest, ⟨⟨hkeys, hentries⟩, hitems⟩ =>
      ⟨⟨h.keys_eq ▸ hkeys, h.keysDistinct hR hentries⟩, hrest.keysDistinct hR hitems⟩

theorem EntriesAlike.keysDistinct
    (hR : ∀ v w : Value, R v w → v.KeysDistinct → w.KeysDistinct) :
    ∀ {es fs : Table}, EntriesAlike R es fs → Value.EntryKeysDistinct es →
      Value.EntryKeysDistinct fs
  | _, _, .nil, _ => trivial
  | _, _, .cons h hrest, ⟨hv, hentries⟩ => ⟨h.keysDistinct hR hv, hrest.keysDistinct hR hentries⟩

theorem ItemsAlike.keysDistinct
    (hR : ∀ v w : Value, R v w → v.KeysDistinct → w.KeysDistinct) :
    ∀ {vs ws : List Value}, ItemsAlike R vs ws → Value.ItemKeysDistinct vs →
      Value.ItemKeysDistinct ws
  | _, _, .nil, _ => trivial
  | _, _, .table h hrest, ⟨⟨hkeys, hentries⟩, hitems⟩ =>
      ⟨⟨h.keys_eq ▸ hkeys, h.keysDistinct hR hentries⟩, hrest.keysDistinct hR hitems⟩
  | _, _, .other _ hrest, ⟨hv, hitems⟩ => ⟨hv, hrest.keysDistinct hR hitems⟩

end

namespace Override

theorem keysDistinct_of_convert {text : String} {v w : Value} (h : convert text v = .ok w) :
    w.KeysDistinct := by
  cases converted_of_convert h with
  | boolean | integer | float | string => trivial

theorem exists_of_mem_convertArray {text : String} {sample : Value} {items : List Value}
    (h : convertArray text sample = .ok items) :
    ∀ w ∈ items, ∃ part, convert part sample = .ok w := by
  unfold convertArray at h
  generalize splitCommas text.toList = parts at h
  induction parts generalizing items with
  | nil =>
      cases h
      exact List.forall_mem_nil _
  | cons part parts ih =>
      rw [List.mapM_cons] at h
      obtain ⟨first, hfirst, h⟩ := except_bind_eq_ok_iff.1 h
      obtain ⟨rest, hrest, h⟩ := except_bind_eq_ok_iff.1 h
      cases h
      exact List.forall_mem_cons.2 ⟨⟨_, hfirst⟩, ih hrest⟩

theorem keysDistinct_of_convertArray {text : String} {sample : Value} {items : List Value}
    (h : convertArray text sample = .ok items) : (Value.array items).KeysDistinct := by
  rw [Value.keysDistinct_array]
  intro w hw
  obtain ⟨part, hpart⟩ := exists_of_mem_convertArray h w hw
  exact keysDistinct_of_convert hpart

theorem allows_keysDistinct : Source.Allows fun v w => v.KeysDistinct → w.KeysDistinct where
  kept v _ := id
  replaced text v w hv h := by
    intro _
    unfold Source.replaceLeaf at h
    split at h
    · cases h
    · obtain ⟨items, hitems, hw⟩ := exists_of_map_eq_ok h
      obtain rfl := Option.some.inj hw
      exact keysDistinct_of_convertArray hitems
    · obtain ⟨converted, hconvert, hw⟩ := exists_of_map_eq_ok h
      obtain rfl := Option.some.inj hw
      exact keysDistinct_of_convert hconvert

/-- A configuration states every key once also after its overrides, failed or not. -/
theorem Source.keysDistinct_apply {tree : Table} (h : tree.KeysDistinct) (source : Source)
    (applied : List String) : (source.apply applied tree).1.KeysDistinct :=
  Value.Alike.keysDistinct (fun _ _ hkeeps => hkeeps)
    (.table (source.alike_apply allows_keysDistinct applied tree)) h

end Override

end TypedConfig
