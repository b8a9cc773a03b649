import TypedConfig.Diff.Basic
import TypedConfig.Proofs.Value.Equality

namespace TypedConfig

namespace Sorting

variable {α β : Type} {le : α → α → Bool} {ge : β → β → Bool}

theorem sort_map (f : α → β) (h : ∀ a b, ge (f a) (f b) = le a b) (xs : List α) :
    sort ge (xs.map f) = (sort le xs).map f := by
  have hsorted : List.Forall₂ (fun a y => f a = y) (sort le xs) (sort ge (xs.map f)) := by
    refine forall₂_sort ?_ (List.forall₂_map_right_iff.2 (List.forall₂_same.2 fun a _ => rfl))
    rintro a b _ _ rfl rfl
    exact h a b
  have heq := List.forall₂_map_left_iff.2 hsorted
  rw [List.forall₂_eq_eq_eq] at heq
  exact heq.symm

end Sorting

namespace Diff

def changesAt (outer : String) (first second : Table) (key : String) : List Entry :=
  match first.lookup key, second.lookup key with
  | some left, right => compareValue (fullKey outer key) left right
  | none, some right => [⟨fullKey outer key, .added right⟩]
  | none, none => []

def allKeys (first second : Table) : List String :=
  Table.keys first ++ (Table.keys second).filter fun key => !Value.hasKey first key

def sortedKeys (first second : Table) : List String :=
  Sorting.sort (fun a b => decide (a ≤ b)) (allKeys first second)

variable {first second : Table} {outer key : String}

theorem mem_allKeys :
    key ∈ allKeys first second ↔ key ∈ Table.keys first ∨ key ∈ Table.keys second := by
  rw [allKeys, List.mem_append, List.mem_filter, ← Value.hasKey_iff_mem_keys]
  by_cases h : Value.hasKey first key <;> simp [h]

theorem nodup_allKeys (hfirst : first.KeysDistinct) (hsecond : second.KeysDistinct) :
    (allKeys first second).Nodup := by
  refine List.nodup_append.2 ⟨hfirst.1, hsecond.1.filter _, ?_⟩
  rintro key hkey _ hnew rfl
  have hnone := (List.mem_filter.1 hnew).2
  rw [Value.hasKey_iff_mem_keys.2 hkey] at hnone
  cases hnone

theorem keyOrder_total (a b : String) : decide (a ≤ b) ∨ decide (b ≤ a) := by
  simpa only [decide_eq_true_eq] using String.le_total a b

theorem keyOrder_trans (a b c : String) (hab : decide (a ≤ b)) (hbc : decide (b ≤ c)) :
    decide (a ≤ c) :=
  decide_eq_true (String.le_trans (of_decide_eq_true hab) (of_decide_eq_true hbc))

theorem mem_sortedKeys :
    key ∈ sortedKeys first second ↔ key ∈ Table.keys first ∨ key ∈ Table.keys second := by
  rw [sortedKeys, (Sorting.sort_perm _ _).mem_iff, mem_allKeys]

/-- Every key of the two tables is visited once, the lesser ones first. -/
theorem pairwise_sortedKeys (hfirst : first.KeysDistinct) (hsecond : second.KeysDistinct) :
    (sortedKeys first second).Pairwise (· < ·) := by
  have hsorted := Sorting.pairwise_sort keyOrder_total keyOrder_trans (allKeys first second)
  have hnodup := (Sorting.sort_perm (fun a b : String => decide (a ≤ b)) _).nodup_iff.2
    (nodup_allKeys hfirst hsecond)
  refine (hsorted.and hnodup).imp fun ⟨hle, hne⟩ => String.not_le.1 fun hge => ?_
  exact hne (String.le_antisymm (of_decide_eq_true hle) hge)

/-- The order in which the keys are visited does not depend on which table comes first. -/
theorem sortedKeys_comm (hfirst : first.KeysDistinct) (hsecond : second.KeysDistinct) :
    sortedKeys second first = sortedKeys first second := by
  have hperm : (allKeys second first).Perm (allKeys first second) := by
    refine (List.perm_ext_iff_of_nodup (nodup_allKeys hsecond hfirst)
      (nodup_allKeys hfirst hsecond)).2 fun key => ?_
    rw [mem_allKeys, mem_allKeys, or_comm]
  refine Sorting.sort_eq_of_perm keyOrder_total keyOrder_trans (fun a _ b _ hab hba => ?_) hperm
  exact String.le_antisymm (of_decide_eq_true hab) (of_decide_eq_true hba)

theorem compareEntries_eq_map (outer : String) (second entries : Table) :
    compareEntries outer second entries = entries.map fun e =>
      (e.1, compareValue (fullKey outer e.1) e.2 (second.lookup e.1)) := by
  induction entries with
  | nil => rfl
  | cons e entries ih => rw [compareEntries, ih, List.map_cons]

theorem compareEntries_eq (hfirst : first.KeysDistinct) : compareEntries outer second first =
    (Table.keys first).map fun key => (key, changesAt outer first second key) := by
  rw [compareEntries_eq_map, Table.keys, List.map_map]
  refine List.map_congr_left fun e he => ?_
  rw [Function.comp_apply, changesAt, hfirst.lookup_eq he]

theorem additions_eq (hsecond : second.KeysDistinct) : additions outer first second =
    ((Table.keys second).filter fun key => !Value.hasKey first key).map
      fun key => (key, changesAt outer first second key) := by
  rw [Table.keys, List.filter_map, List.map_map]
  refine List.map_congr_left fun e he => ?_
  obtain ⟨hmem, hnew⟩ := List.mem_filter.1 he
  have hnone : first.lookup e.1 = none := by simpa [Value.hasKey] using hnew
  rw [Function.comp_apply, changesAt, hnone, hsecond.lookup_eq hmem]

theorem compare_eq_flatMap (hfirst : first.KeysDistinct) (hsecond : second.KeysDistinct) :
    compare first second outer =
      (sortedKeys first second).flatMap (changesAt outer first second) := by
  have hsort : Sorting.sort (fun a b : String × List Entry => decide (a.1 ≤ b.1))
      ((allKeys first second).map fun key => (key, changesAt outer first second key)) =
      (sortedKeys first second).map fun key => (key, changesAt outer first second key) :=
    Sorting.sort_map _ (fun _ _ => rfl) _
  rw [compare, Groups.entries, compareEntries_eq hfirst, additions_eq hsecond, ← List.map_append,
    ← allKeys, hsort, List.flatMap_map]

theorem compareValue_none (full : String) (left : Value) :
    compareValue full left none = [⟨full, .removed left⟩] := by
  rw [compareValue]

theorem compareValue_of_not_tables {left right : Value} (full : String)
    (h : left.isTable = false ∨ right.isTable = false) :
    compareValue full left (some right) =
      if left.equal right then [] else [⟨full, .changed left right⟩] := by
  rw [compareValue]
  rintro first second rfl hright
  cases hright
  obtain h | h := h <;> cases h

theorem compareValue_tables (full : String) (first second : Table) :
    compareValue full (.table first) (some (.table second)) = compare first second full := by
  rw [compareValue, compare]

end Diff

end TypedConfig
