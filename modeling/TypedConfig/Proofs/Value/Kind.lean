import TypedConfig.Go.Type

namespace TypedConfig.Value

def isLeaf (v : Value) : Bool :=
  !v.isTable && !v.isTableArray

def isString : Value → Bool
  | .string _ => true
  | _ => false

variable {v : Value}

theorem isTableArray_cons (first : Value) (rest : List Value) :
    isTableArray (.array (first :: rest)) = first.isTable := by
  cases first <;> rfl

theorem isString_eq_false (h : ∀ text, v ≠ .string text) : v.isString = false := by
  cases v <;> first | rfl | exact absurd rfl (h _)

theorem meaning_eq_reference_iff {text : String} :
    meaning text = .reference ↔ TypedConfig.isReference text := by
  unfold meaning
  split
  · next h => simp [h]
  · next h => split <;> simp [h]

theorem stringKind_cases (text : String) :
    stringKind text = .bytes ∨ stringKind text = .duration ∨ stringKind text = .string := by
  unfold stringKind
  split <;> simp

theorem exists_of_kind_table (h : v.kind = .table) : ∃ entries, v = .table entries := by
  cases v with
  | string text => obtain h' | h' | h' := stringKind_cases text <;> simp [kind, h'] at h
  | array items =>
      cases items with
      | nil => cases h
      | cons first rest => cases first <;> cases h
  | table entries => exact ⟨entries, rfl⟩
  | _ => cases h

theorem exists_of_kind_tableArray (h : v.kind = .tableArray) :
    ∃ entries rest, v = .array (.table entries :: rest) := by
  cases v with
  | string text => obtain h' | h' | h' := stringKind_cases text <;> simp [kind, h'] at h
  | array items =>
      cases items with
      | nil => cases h
      | cons first rest =>
          cases first with
          | table entries => exact ⟨entries, rest, rfl⟩
          | _ => cases h
  | _ => cases h

theorem exists_of_kind_duration (h : v.kind = .duration) :
    ∃ text n, v = .string text ∧ meaning text = .duration n := by
  cases v with
  | string text =>
      simp only [kind, stringKind] at h
      split at h
      · cases h
      · next n hn => exact ⟨text, n, rfl, hn⟩
      · cases h
  | array items =>
      cases items with
      | nil => cases h
      | cons first rest => cases first <;> cases h
  | _ => cases h

theorem ofValue_of_kind_duration (h : v.kind = .duration) : Go.GoType.ofValue v = .duration := by
  obtain ⟨text, n, rfl, hn⟩ := exists_of_kind_duration h
  simp [Go.GoType.ofValue, Go.GoType.ofStringKind, stringKind, hn]

end TypedConfig.Value
