import TypedConfig.Proofs.Value.Kind
import TypedConfig.Proofs.Value.Sorted

namespace TypedConfig

variable {R : Value → Value → Prop}

mutual

/-- The same tables and arrays of tables, their leaves related by `R`. What is no table in an
array of tables is no leaf and the same on both sides. -/
inductive Value.Alike (R : Value → Value → Prop) : Value → Value → Prop
  | leaf {v w : Value} (hv : v.isLeaf) (hw : w.isLeaf) (h : R v w) : Value.Alike R v w
  | table {es fs : List (String × Value)} (h : EntriesAlike R es fs) :
      Value.Alike R (.table es) (.table fs)
  | tables {es fs : List (String × Value)} {vs ws : List Value} (h : EntriesAlike R es fs)
      (hrest : ItemsAlike R vs ws) :
      Value.Alike R (.array (.table es :: vs)) (.array (.table fs :: ws))

inductive EntriesAlike (R : Value → Value → Prop) :
    List (String × Value) → List (String × Value) → Prop
  | nil : EntriesAlike R [] []
  | cons {key : String} {v w : Value} {es fs : List (String × Value)} (h : Value.Alike R v w)
      (hrest : EntriesAlike R es fs) : EntriesAlike R ((key, v) :: es) ((key, w) :: fs)

inductive ItemsAlike (R : Value → Value → Prop) : List Value → List Value → Prop
  | nil : ItemsAlike R [] []
  | table {es fs : List (String × Value)} {vs ws : List Value} (h : EntriesAlike R es fs)
      (hrest : ItemsAlike R vs ws) : ItemsAlike R (.table es :: vs) (.table fs :: ws)
  | other {v : Value} {vs ws : List Value} (hv : v.isTable = false) (hrest : ItemsAlike R vs ws) :
      ItemsAlike R (v :: vs) (v :: ws)

end

theorem entriesAlike_iff_forall₂ {es fs : Table} : EntriesAlike R es fs ↔
    List.Forall₂ (fun e f => f.1 = e.1 ∧ Value.Alike R e.2 f.2) es fs := by
  constructor
  · intro h
    induction es generalizing fs with
    | nil =>
        cases h
        exact .nil
    | cons e es ih =>
        cases h with
        | cons h hrest => exact .cons ⟨rfl, h⟩ (ih hrest)
  · intro h
    induction h with
    | nil => exact .nil
    | @cons e f _ _ h _ ih =>
        obtain ⟨key, v⟩ := e
        obtain ⟨_, w⟩ := f
        obtain ⟨rfl, h⟩ := h
        exact .cons h ih

mutual

theorem Value.Alike.refl (hR : ∀ v : Value, v.isLeaf → R v v) : ∀ v : Value, v.Alike R v
  | .table entries => .table (.refl hR entries)
  | .array (.table entries :: rest) => .tables (.refl hR entries) (.refl hR rest)
  | .array [] | .array (.string _ :: _) | .array (.integer _ :: _) | .array (.float _ :: _)
  | .array (.boolean _ :: _) | .array (.moment _ :: _) | .array (.array _ :: _)
  | .array (.absent :: _) | .string _ | .integer _ | .float _ | .boolean _ | .moment _ | .absent =>
      .leaf rfl rfl (hR _ rfl)

theorem EntriesAlike.refl (hR : ∀ v : Value, v.isLeaf → R v v) : ∀ es : Table, EntriesAlike R es es
  | [] => .nil
  | (_, v) :: rest => .cons (.refl hR v) (.refl hR rest)

theorem ItemsAlike.refl (hR : ∀ v : Value, v.isLeaf → R v v) :
    ∀ vs : List Value, ItemsAlike R vs vs
  | [] => .nil
  | .table entries :: rest => .table (.refl hR entries) (.refl hR rest)
  | .string _ :: rest | .integer _ :: rest | .float _ :: rest | .boolean _ :: rest
  | .moment _ :: rest | .array _ :: rest | .absent :: rest => .other rfl (.refl hR rest)

end

end TypedConfig
