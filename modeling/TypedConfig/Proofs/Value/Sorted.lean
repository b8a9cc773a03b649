import TypedConfig.Go.Type
import Mathlib.Data.List.Basic

namespace TypedConfig

mutual

def Value.sorted : Value → Value
  | .array items => .array (sortedItems items)
  | .table entries => .table (Table.sortByKey (sortedEntries entries))
  | v => v

def Value.sortedItems : List Value → List Value
  | [] => []
  | v :: rest => v.sorted :: sortedItems rest

def Value.sortedEntries : List (String × Value) → List (String × Value)
  | [] => []
  | (k, v) :: rest => (k, v.sorted) :: sortedEntries rest

end

def Table.sorted (t : Table) : Table :=
  Table.sortByKey (Value.sortedEntries t)

namespace Sorting

variable {α : Type} (le : α → α → Bool)

theorem insert_perm (a : α) (xs : List α) : (insert le a xs).Perm (a :: xs) := by
  induction xs with
  | nil => exact .refl _
  | cons b xs ih =>
      rw [insert]
      split
      · exact .refl _
      · exact (ih.cons b).trans (.swap a b xs)

theorem sort_perm (xs : List α) : (sort le xs).Perm xs := by
  induction xs with
  | nil => exact .refl _
  | cons a xs ih => exact (insert_perm le a _).trans (ih.cons a)

section

variable {β : Type} {r : α → β → Prop} {le} {ge : β → β → Bool}
  (hle : ∀ a b x y, r a x → r b y → ge x y = le a b)

include hle

theorem forall₂_insert {a : α} {x : β} (hax : r a x) {as : List α} {xs : List β}
    (h : List.Forall₂ r as xs) : List.Forall₂ r (insert le a as) (insert ge x xs) := by
  induction h with
  | nil => exact .cons hax .nil
  | cons hby hrest ih =>
      rw [insert, insert, hle _ _ _ _ hax hby]
      split
      · exact .cons hax (.cons hby hrest)
      · exact .cons hby ih

/-- What is compared alike is put in order alike. -/
theorem forall₂_sort {as : List α} {xs : List β} (h : List.Forall₂ r as xs) :
    List.Forall₂ r (sort le as) (sort ge xs) := by
  induction h with
  | nil => exact .nil
  | cons hax _ ih => exact forall₂_insert hle hax ih

end

theorem map_insert {β : Type} {le} {ge : β → β → Bool} (f : α → β)
    (hle : ∀ a b, ge (f a) (f b) = le a b) (a : α) (xs : List α) :
    (insert le a xs).map f = insert ge (f a) (xs.map f) := by
  induction xs with
  | nil => rfl
  | cons b xs ih =>
      rw [List.map_cons, insert, insert, hle]
      split
      · rfl
      · rw [List.map_cons, ih]

/-- Sorting commutes with whatever keeps the order. -/
theorem map_sort {β : Type} {le} {ge : β → β → Bool} (f : α → β)
    (hle : ∀ a b, ge (f a) (f b) = le a b) (xs : List α) :
    (sort le xs).map f = sort ge (xs.map f) := by
  induction xs with
  | nil => rfl
  | cons a xs ih => rw [sort, map_insert f hle, ih, List.map_cons, sort]

theorem sort_eq_self {xs : List α} {le} (h : xs.Pairwise (le · ·)) : sort le xs = xs := by
  induction xs with
  | nil => rfl
  | cons a xs ih =>
      obtain ⟨ha, hxs⟩ := List.pairwise_cons.1 h
      rw [sort, ih hxs]
      cases xs with
      | nil => rfl
      | cons b xs => exact if_pos (ha b List.mem_cons_self)

end Sorting

namespace Sorting

variable {α : Type} {le : α → α → Bool} (htotal : ∀ a b, le a b ∨ le b a)
  (htrans : ∀ a b c, le a b → le b c → le a c)

include htotal htrans

theorem pairwise_insert (a : α) {xs : List α} (h : xs.Pairwise (le · ·)) :
    (insert le a xs).Pairwise (le · ·) := by
  induction xs with
  | nil => exact List.pairwise_singleton _ _
  | cons b xs ih =>
      obtain ⟨hb, hxs⟩ := List.pairwise_cons.1 h
      rw [insert]
      split
      · next hab =>
        refine List.pairwise_cons.2 ⟨List.forall_mem_cons.2 ⟨hab, fun c hc => ?_⟩, h⟩
        exact htrans a b c hab (hb c hc)
      · next hab =>
        have hba : le b a := (htotal a b).resolve_left hab
        refine List.pairwise_cons.2 ⟨fun c hc => ?_, ih hxs⟩
        obtain rfl | hc := List.mem_cons.1 ((insert_perm le a xs).mem_iff.1 hc)
        · exact hba
        · exact hb c hc

theorem pairwise_sort (xs : List α) : (sort le xs).Pairwise (le · ·) := by
  induction xs with
  | nil => exact .nil
  | cons a xs ih => exact pairwise_insert htotal htrans a ih

/-- Where no two elements have the same place, their first order does not matter. -/
theorem sort_eq_of_perm {xs ys : List α}
    (hanti : ∀ a ∈ xs, ∀ b ∈ xs, le a b → le b a → a = b) (h : xs.Perm ys) :
    sort le xs = sort le ys := by
  have hperm : (sort le xs).Perm (sort le ys) :=
    (sort_perm le xs).trans (h.trans (sort_perm le ys).symm)
  refine hperm.eq_of_pairwise (fun a b ha hb => ?_) (pairwise_sort htotal htrans xs)
    (pairwise_sort htotal htrans ys)
  have hb : b ∈ xs := h.mem_iff.2 ((sort_perm le ys).mem_iff.1 hb)
  exact hanti a ((sort_perm le xs).mem_iff.1 ha) b hb

end Sorting

namespace Table

variable {α β : Type}

theorem keyLe_total (a b : String × α) : keyLe a b ∨ keyLe b a := by
  simp only [keyLe, decide_eq_true_eq]
  exact String.le_total a.1 b.1

theorem keyLe_trans (a b c : String × α) (h : keyLe a b) (h' : keyLe b c) : keyLe a c := by
  simp only [keyLe, decide_eq_true_eq] at h h' ⊢
  exact String.le_trans h h'

theorem sortByKey_perm (entries : List (String × α)) : (sortByKey entries).Perm entries :=
  Sorting.sort_perm keyLe entries

@[simp] theorem mem_sortByKey {entries : List (String × α)} {e : String × α} :
    e ∈ sortByKey entries ↔ e ∈ entries :=
  (sortByKey_perm entries).mem_iff

theorem pairwise_keys_sortByKey (t : Table) : (keys (sortByKey t)).Pairwise (· ≤ ·) := by
  refine List.pairwise_map.2 ((Sorting.pairwise_sort keyLe_total keyLe_trans t).imp ?_)
  exact of_decide_eq_true

theorem any_sortByKey (t : Table) (f : String × Value → Bool) : (sortByKey t).any f = t.any f :=
  (sortByKey_perm t).any_eq

theorem sortByKey_sortByKey (entries : List (String × α)) :
    sortByKey (sortByKey entries) = sortByKey entries :=
  Sorting.sort_eq_self (Sorting.pairwise_sort keyLe_total keyLe_trans entries)

/-- What is made of the values leaves the keys where they are. -/
theorem sortByKey_map (f : String × α → β) (entries : List (String × α)) :
    sortByKey (entries.map fun e => (e.1, f e)) = (sortByKey entries).map fun e => (e.1, f e) :=
  (Sorting.map_sort _ (fun _ _ => rfl) entries).symm

end Table

namespace Value

theorem sortedEntries_eq_map (entries : Table) :
    sortedEntries entries = entries.map fun e => (e.1, e.2.sorted) := by
  induction entries with
  | nil => rfl
  | cons entry entries ih => rw [sortedEntries, ih, List.map_cons]

theorem entriesContainDuration_eq_any (entries : Table) :
    entriesContainDuration entries = entries.any (·.2.containsDuration) := by
  induction entries with
  | nil => rfl
  | cons entry entries ih => rw [entriesContainDuration, ih, List.any_cons]

theorem kind_sorted (v : Value) : v.sorted.kind = v.kind := by
  cases v with
  | array items =>
      cases items with
      | nil => rfl
      | cons first rest => cases first <;> rfl
  | _ => rfl

theorem isTable_sorted (v : Value) : v.sorted.isTable = v.isTable := by
  cases v <;> rfl

theorem isTableArray_sortedItems (items : List Value) :
    isTableArray (.array (sortedItems items)) = isTableArray (.array items) := by
  cases items with
  | nil => rfl
  | cons first rest => cases first <;> rfl

theorem ofValue_sorted (v : Value) : Go.GoType.ofValue v.sorted = Go.GoType.ofValue v := by
  fun_induction Go.GoType.ofValue v with
  | case7 first rest ih =>
      rw [sorted, sortedItems, Go.GoType.ofValue, ih]
  | _ => rfl

end Value

theorem Table.sorted_eq_map (t : Table) :
    t.sorted = (Table.sortByKey t).map fun e => (e.1, e.2.sorted) := by
  rw [sorted, Value.sortedEntries_eq_map, sortByKey_map]

end TypedConfig
