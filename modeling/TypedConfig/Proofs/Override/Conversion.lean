import TypedConfig.Override.Basic
import TypedConfig.Proofs.Value.Kind

namespace TypedConfig.Override

variable {text : String} {v w : Value}

inductive Converted (text : String) : Value → Value → Prop
  | boolean (b c : Bool) : Converted text (.boolean b) (.boolean c)
  | integer (n m : Int) : Converted text (.integer n) (.integer m)
  | float (x y : Binary64) : Converted text (.float x) (.float y)
  | string {v : Value} (hboolean : ∀ b, v ≠ .boolean b) (hinteger : ∀ n, v ≠ .integer n)
      (hfloat : ∀ x, v ≠ .float x) : Converted text v (.string text)

theorem exists_of_map_eq_ok {ε α β : Type} {f : α → β} {x : Except ε α} {b : β}
    (h : f <$> x = .ok b) : ∃ a, x = .ok a ∧ f a = b := by
  cases x with
  | error e => cases h
  | ok a => exact ⟨a, rfl, Except.ok.inj h⟩

theorem converted_of_convert (h : convert text v = .ok w) : Converted text v w := by
  unfold convert at h
  split at h
  · obtain ⟨c, -, rfl⟩ := exists_of_map_eq_ok h
    exact .boolean _ c
  · obtain ⟨m, -, rfl⟩ := exists_of_map_eq_ok h
    exact .integer _ m
  · obtain ⟨y, -, rfl⟩ := exists_of_map_eq_ok h
    exact .float _ y
  · next hboolean hinteger hfloat =>
    cases h
    exact .string hboolean hinteger hfloat

theorem Converted.isLeaf (h : Converted text v w) : w.isLeaf := by
  cases h with
  | boolean | integer | float | string => rfl

theorem splitCommas_ne_nil (cs : List Char) : splitCommas cs ≠ [] := by
  cases cs with
  | nil => simp [splitCommas]
  | cons c cs =>
      rw [splitCommas]
      split
      · simp
      · split <;> simp

def firstPart (text : String) : String :=
  Text.trim (String.ofList ((splitCommas text.toList).headD []))

/-- There is always a first part. -/
theorem converted_of_convertArray {sample : Value} {items : List Value}
    (h : convertArray text sample = .ok items) :
    ∃ first rest, items = first :: rest ∧ Converted (firstPart text) sample first := by
  unfold convertArray at h
  unfold firstPart
  obtain ⟨part, parts, hparts⟩ := List.exists_cons_of_ne_nil (splitCommas_ne_nil text.toList)
  rw [hparts, List.mapM_cons] at h
  rw [hparts, List.headD_cons]
  cases hfirst : convert (Text.trim (String.ofList part)) sample with
  | error e =>
      rw [hfirst] at h
      cases h
  | ok first =>
      rw [hfirst] at h
      obtain ⟨rest, -, rfl⟩ := exists_of_map_eq_ok h
      exact ⟨first, rest, rfl, converted_of_convert hfirst⟩

/-- An array that does not start with a table never becomes one that does. -/
theorem Source.isLeaf_of_replaceLeaf (h : replaceLeaf text v = .ok (some w)) : w.isLeaf := by
  unfold replaceLeaf at h
  split at h
  · cases h
  · obtain ⟨items, hitems, hw⟩ := exists_of_map_eq_ok h
    obtain ⟨first, rest, rfl, hfirst⟩ := converted_of_convertArray hitems
    obtain rfl := Option.some.inj hw
    cases hfirst with
    | boolean | integer | float | string => rfl
  · obtain ⟨converted, hconvert, hw⟩ := exists_of_map_eq_ok h
    obtain rfl := Option.some.inj hw
    exact (converted_of_convert hconvert).isLeaf

end TypedConfig.Override
