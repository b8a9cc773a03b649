import TypedConfig.Proofs.Override.Conversion
import TypedConfig.Proofs.Value.Alike

namespace TypedConfig.Override

mutual

/-- The leaves of a value with their paths, in document order. -/
def valueLeaves (path : Path) : Value → List (Path × Value)
  | .table entries => entryLeaves path entries
  | .array items =>
    if Value.isTableArray (.array items) then tableLeaves path 0 items else [(path, .array items)]
  | v => [(path, v)]

def entryLeaves (path : Path) : List (String × Value) → List (Path × Value)
  | [] => []
  | (key, v) :: rest => valueLeaves (path ++ [.key key]) v ++ entryLeaves path rest

def tableLeaves (path : Path) (i : Nat) : List Value → List (Path × Value)
  | [] => []
  | .table entries :: rest =>
    entryLeaves (path ++ [.index i]) entries ++ tableLeaves path (i + 1) rest
  | _ :: rest => tableLeaves path (i + 1) rest

end

theorem entryLeaves_eq_flatMap (path : Path) (entries : Table) : entryLeaves path entries =
    entries.flatMap fun e => valueLeaves (path ++ [.key e.1]) e.2 := by
  induction entries with
  | nil => rfl
  | cons entry entries ih => rw [entryLeaves, ih, List.flatMap_cons]

theorem valueLeaves_of_isLeaf {v : Value} (h : v.isLeaf) (path : Path) :
    valueLeaves path v = [(path, v)] := by
  cases v with
  | table entries => cases h
  | array items =>
      rw [valueLeaves, if_neg]
      rw [Value.isLeaf, Bool.and_eq_true, Bool.not_eq_true'] at h
      simpa using h.2
  | _ => rfl

theorem mem_entryLeaves {path : Path} {entries : Table} {e : String × Value} (he : e ∈ entries)
    (hleaf : e.2.isLeaf) : (path ++ [.key e.1], e.2) ∈ entryLeaves path entries := by
  rw [entryLeaves_eq_flatMap]
  refine List.mem_flatMap.2 ⟨e, he, ?_⟩
  rw [valueLeaves_of_isLeaf hleaf]
  exact List.mem_singleton_self _

namespace Source

variable {source : Source}

def text? (source : Source) (path : Path) : Option String :=
  lookUp source.environment (source.variableName path)

def visit (source : Source) (outcome : Outcome) (leaf : Path × Value) : Outcome :=
  (source.applyLeaf leaf.1 leaf.2 outcome).2

def conflict? (source : Source) (leaf : Path × Value) : Option OverrideError :=
  let name := source.variableName leaf.1
  match lookUp source.environment name with
  | none => none
  | some text =>
    match replaceLeaf text leaf.2 with
    | .error cause => some ⟨name, cause⟩
    | .ok _ => none

theorem failure_visit (outcome : Outcome) (leaf : Path × Value) :
    (source.visit outcome leaf).failure = outcome.failure.or (source.conflict? leaf) := by
  obtain ⟨path, v⟩ := leaf
  unfold visit applyLeaf conflict?
  dsimp only
  cases hfailure : outcome.failure with
  | some error => simp [hfailure]
  | none =>
      cases lookUp source.environment (source.variableName path) with
      | none => simp [hfailure]
      | some text =>
          dsimp only
          cases replaceLeaf text v with
          | error cause => rfl
          | ok replaced => cases replaced <;> rfl

theorem failure_foldl_visit (leaves : List (Path × Value)) (outcome : Outcome) :
    (leaves.foldl source.visit outcome).failure =
      outcome.failure.or (leaves.findSome? source.conflict?) := by
  induction leaves generalizing outcome with
  | nil => simp
  | cons leaf leaves ih =>
      rw [List.foldl_cons, ih, failure_visit, List.findSome?_cons, Option.or_assoc]
      cases source.conflict? leaf <;> rfl

mutual

theorem applyValue_snd {path : Path} : ∀ (v : Value) (outcome : Outcome),
    (source.applyValue path outcome v).2 = (valueLeaves path v).foldl source.visit outcome
  | .table entries, outcome => by
      rw [applyValue, valueLeaves]
      exact applyEntries_snd entries outcome
  | .array items, outcome => by
      rw [applyValue, valueLeaves]
      split
      · exact applyTables_snd items outcome
      · rfl
  | .string _, _ | .integer _, _ | .float _, _ | .boolean _, _ | .moment _, _ | .absent, _ => rfl

theorem applyEntries_snd {path : Path} : ∀ (entries : Table) (outcome : Outcome),
    (source.applyEntries path outcome entries).2 =
      (entryLeaves path entries).foldl source.visit outcome
  | [], _ => rfl
  | (key, v) :: rest, outcome => by
      rw [applyEntries, entryLeaves, List.foldl_append, ← applyValue_snd v outcome]
      exact applyEntries_snd rest _

theorem applyTables_snd {path : Path} {i : Nat} : ∀ (items : List Value) (outcome : Outcome),
    (source.applyTables path i outcome items).2 =
      (tableLeaves path i items).foldl source.visit outcome
  | [], _ => rfl
  | .table entries :: rest, outcome => by
      rw [applyTables, tableLeaves, List.foldl_append, ← applyEntries_snd entries outcome]
      exact applyTables_snd rest _
  | .string _ :: rest, outcome | .integer _ :: rest, outcome | .float _ :: rest, outcome
  | .boolean _ :: rest, outcome | .moment _ :: rest, outcome | .array _ :: rest, outcome
  | .absent :: rest, outcome => applyTables_snd rest outcome

end

/-- The first leaf that has an error ends the pass. -/
theorem failure_apply (source : Source) (applied : List String) (tree : Table) :
    (source.apply applied tree).2.failure = (entryLeaves [] tree).findSome? source.conflict? := by
  rw [apply, applyEntries_snd, failure_foldl_visit, Outcome.start, Option.none_or]

theorem applyLeaf_fst (path : Path) (v : Value) (outcome : Outcome) :
    (source.applyLeaf path v outcome).1 = v ∨
      ∃ text, replaceLeaf text v = .ok (some (source.applyLeaf path v outcome).1) := by
  unfold applyLeaf
  dsimp only
  split
  · exact .inl rfl
  · exact .inl rfl
  · next text _ _ =>
    split
    · exact .inl rfl
    · exact .inl rfl
    · next hreplaced => exact .inr ⟨text, hreplaced⟩

/-- A relation between leaves and what may stand in their place. -/
structure Allows (R : Value → Value → Prop) : Prop where
  kept : ∀ v : Value, v.isLeaf → R v v
  replaced : ∀ (text : String) (v w : Value), v.isLeaf → replaceLeaf text v = .ok (some w) → R v w

variable {R : Value → Value → Prop}

theorem alike_applyLeaf (hR : Allows R) {path : Path} {v : Value} (hv : v.isLeaf)
    (outcome : Outcome) : v.Alike R (source.applyLeaf path v outcome).1 := by
  obtain h | ⟨text, h⟩ := applyLeaf_fst path v outcome
  · rw [h]
    exact .leaf hv hv (hR.kept v hv)
  · exact .leaf hv (isLeaf_of_replaceLeaf h) (hR.replaced text v _ hv h)

mutual

theorem alike_applyValue (hR : Allows R) {path : Path} : ∀ (v : Value) (outcome : Outcome),
    v.Alike R (source.applyValue path outcome v).1
  | .table entries, outcome => .table (alike_applyEntries hR entries outcome)
  | .array (.table entries :: rest), outcome =>
      .tables (alike_applyEntries hR entries outcome) (alike_applyTables hR rest _)
  | .array [], outcome | .array (.string _ :: _), outcome | .array (.integer _ :: _), outcome
  | .array (.float _ :: _), outcome | .array (.boolean _ :: _), outcome
  | .array (.moment _ :: _), outcome | .array (.array _ :: _), outcome
  | .array (.absent :: _), outcome | .string _, outcome | .integer _, outcome | .float _, outcome
  | .boolean _, outcome | .moment _, outcome | .absent, outcome =>
      alike_applyLeaf hR rfl outcome

theorem alike_applyEntries (hR : Allows R) {path : Path} : ∀ (entries : Table) (outcome : Outcome),
    EntriesAlike R entries (source.applyEntries path outcome entries).1
  | [], _ => .nil
  | (_, v) :: rest, outcome =>
      .cons (alike_applyValue hR v outcome) (alike_applyEntries hR rest _)

theorem alike_applyTables (hR : Allows R) {path : Path} {i : Nat} :
    ∀ (items : List Value) (outcome : Outcome),
      ItemsAlike R items (source.applyTables path i outcome items).1
  | [], _ => .nil
  | .table entries :: rest, outcome =>
      .table (alike_applyEntries hR entries outcome) (alike_applyTables hR rest _)
  | .string _ :: rest, outcome | .integer _ :: rest, outcome | .float _ :: rest, outcome
  | .boolean _ :: rest, outcome | .moment _ :: rest, outcome | .array _ :: rest, outcome
  | .absent :: rest, outcome => .other rfl (alike_applyTables hR rest outcome)

end

/-- Only leaves are replaced. -/
theorem alike_apply (hR : Allows R) (source : Source) (applied : List String) (tree : Table) :
    EntriesAlike R tree (source.apply applied tree).1 :=
  alike_applyEntries hR tree _

end Source

end TypedConfig.Override
