import TypedConfig.Proofs.Emission.Typing

namespace TypedConfig

open Go (GoType Literal)

namespace Value

/-- An array whose elements are all strings, all integers, all floats, all booleans, or all arrays
of this sort. -/
inductive Uniform : Value → Prop
  | strings (texts : List String) : Uniform (.array (texts.map .string))
  | integers (ns : List Int) : Uniform (.array (ns.map .integer))
  | floats (xs : List Binary64) : Uniform (.array (xs.map .float))
  | booleans (bs : List Bool) : Uniform (.array (bs.map .boolean))
  | arrays {items : List Value} (h : ∀ v ∈ items, Uniform v) : Uniform (.array items)

/-- In every array of the value the first element is a plain string, or the others have the type of
the first. Empty arrays have the type of any array. -/
inductive SpokenFor : Value → Prop
  | scalar {v : Value} (h : ∀ items, v ≠ .array items) : SpokenFor v
  | empty : SpokenFor (.array [])
  | plain {first : Value} {rest : List Value} (h : first.kind = .string) :
      SpokenFor (.array (first :: rest))
  | typed {first : Value} {rest : List Value}
      (htype : ∀ v ∈ rest, v = .array [] ∨ GoType.ofValue v = GoType.ofValue first)
      (hspoken : ∀ v ∈ first :: rest, SpokenFor v) : SpokenFor (.array (first :: rest))

variable {first v : Value} {rest items : List Value} {t : GoType}

theorem elementsFit_iff : ElementsFit t items ↔
    ∀ v ∈ items, (v.isString ∧ t = .string) ∨ v.LeafFits t := by
  induction items with
  | nil => simp [ElementsFit]
  | cons v items ih => rw [ElementsFit, ih, List.forall_mem_cons]

theorem leafFits_cons (hfirst : first.isTable = false) :
    (Value.array (first :: rest)).LeafFits t ↔
      t.Takes (.slice (GoType.ofValue first)) ∧ first.LeafFits (GoType.ofValue first) ∧
        ∀ v ∈ rest, (v.isString ∧ GoType.ofValue first = .string) ∨
          v.LeafFits (GoType.ofValue first) := by
  rw [LeafFits, if_neg (by simp [hfirst]), elementsFit_iff]

/-- Whether an array may be written in place of another only depends on its type. -/
theorem leafFits_slice_iff (hitems : ∀ v ∈ items, v.isTable = false) :
    (Value.array items).LeafFits (.slice t) ↔
      (Value.array items = .array [] ∨ GoType.ofValue (.array items) = .slice t) ∧
        (Value.array items).LeafFits (GoType.ofValue (.array items)) := by
  cases items with
  | nil =>
      have hnil (t : GoType) : (Value.array []).LeafFits (.slice t) := .inr ⟨t, rfl⟩
      exact iff_of_true (hnil t) ⟨.inl rfl, hnil .any⟩
  | cons first rest =>
      have hfirst := hitems first List.mem_cons_self
      rw [leafFits_cons hfirst, leafFits_cons hfirst]
      constructor
      · rintro ⟨htakes | htakes, hfits⟩
        · exact ⟨.inr htakes.symm, .inl rfl, hfits⟩
        · cases htakes
      · rintro ⟨htype | htype, -, hfits⟩
        · cases htype
        · exact ⟨.inl htype.symm, hfits⟩

/-- Among scalars of one type of the generated code any speaks for the others. -/
theorem leafFits_map_iff {α : Type} (f : α → Value) (t : GoType) (xs : List α)
    (hscalar : ∀ x, (f x).isTable = false ∧ ∀ items, f x ≠ .array items)
    (htype : ∀ x, GoType.ofValue (f x) = t ∧ (f x).LeafFits t) :
    (Value.array (xs.map f)).LeafFits (GoType.ofValue (.array (xs.map f))) ↔
      (Value.array (xs.map f)).SpokenFor := by
  cases xs with
  | nil => exact iff_of_true (.inr ⟨_, rfl⟩) .empty
  | cons x xs =>
      refine iff_of_true ?_ ?_
      · rw [List.map_cons, leafFits_cons (hscalar x).1, (htype x).1]
        refine ⟨.inl (congrArg GoType.slice (htype x).1), (htype x).2, fun v hv => ?_⟩
        obtain ⟨y, -, rfl⟩ := List.mem_map.1 hv
        exact .inr (htype y).2
      · refine .typed (fun v hv => ?_) fun v hv => ?_
        · obtain ⟨y, -, rfl⟩ := List.mem_map.1 hv
          exact .inr ((htype y).1.trans (htype x).1.symm)
        · rw [← List.map_cons] at hv
          obtain ⟨y, -, rfl⟩ := List.mem_map.1 hv
          exact .scalar (hscalar y).2

/-- Strings among which the first is not plain. -/
theorem spokenFor_strings_iff {text : String} {texts : List String}
    (htext : (Value.string text).kind ≠ .string) :
    (Value.array (.string text :: texts.map .string)).SpokenFor ↔
      ∀ other ∈ texts, GoType.ofValue (.string other) = GoType.ofValue (.string text) := by
  constructor
  · intro h other hother
    cases h with
    | scalar h => exact absurd rfl (h _)
    | plain h => exact absurd h htext
    | typed htype =>
        rcases htype _ (List.mem_map_of_mem hother) with h | h
        · cases h
        · exact h
  · intro h
    refine .typed ?_ ?_
    · intro v hv
      obtain ⟨other, hother, rfl⟩ := List.mem_map.1 hv
      exact .inr (h other hother)
    · intro v hv
      rw [← List.map_cons] at hv
      obtain ⟨other, -, rfl⟩ := List.mem_map.1 hv
      exact .scalar nofun

theorem ofValue_string_ne_any (text : String) : GoType.ofValue (.string text) ≠ .any := by
  rw [GoType.ofValue]
  rcases stringKind_cases text with h | h | h <;> simp [h, GoType.ofStringKind]

theorem leafFits_strings_iff (texts : List String) :
    (Value.array (texts.map .string)).LeafFits (GoType.ofValue (.array (texts.map .string))) ↔
      (Value.array (texts.map .string)).SpokenFor := by
  cases texts with
  | nil => exact iff_of_true (.inr ⟨_, rfl⟩) .empty
  | cons text texts =>
      rw [List.map_cons, leafFits_cons rfl]
      by_cases hplain : (Value.string text).kind = .string
      · have hstring := (Build.kind_eq_string_iff _).1 hplain
        refine iff_of_true ⟨.inl rfl, .inl rfl, ?_⟩ (.plain hplain)
        intro v hv
        obtain ⟨other, -, rfl⟩ := List.mem_map.1 hv
        exact .inl ⟨rfl, hstring⟩
      · have hstring := mt (Build.kind_eq_string_iff _).2 hplain
        have htake (other : String) :
            (Value.string other).LeafFits (GoType.ofValue (.string text)) ↔
              GoType.ofValue (.string text) = GoType.ofValue (.string other) :=
          or_iff_left (ofValue_string_ne_any text)
        rw [spokenFor_strings_iff hplain]
        constructor
        · rintro ⟨-, -, hrest⟩ other hother
          rcases hrest _ (List.mem_map_of_mem hother) with ⟨-, h⟩ | h
          · exact absurd h hstring
          · exact ((htake other).1 h).symm
        · intro h
          refine ⟨.inl rfl, .inl rfl, ?_⟩
          intro v hv
          obtain ⟨other, hother, rfl⟩ := List.mem_map.1 hv
          exact .inr ((htake other).2 (h other hother).symm)

theorem Uniform.exists_items (h : v.Uniform) :
    ∃ items, v = .array items ∧ ∀ item ∈ items, item.isTable = false := by
  cases h with
  | strings | integers | floats | booleans =>
      refine ⟨_, rfl, fun item hitem => ?_⟩
      obtain ⟨x, -, rfl⟩ := List.mem_map.1 hitem
      rfl
  | arrays h =>
      refine ⟨_, rfl, fun item hitem => ?_⟩
      cases h item hitem with
      | strings | integers | floats | booleans | arrays => rfl

theorem kind_array_ne_string (items : List Value) : (Value.array items).kind ≠ .string := by
  cases items with
  | nil => nofun
  | cons first rest => cases first <;> nofun

theorem exists_ofValue_array (items : List Value) :
    ∃ t, GoType.ofValue (.array items) = .slice t := by
  cases items with
  | nil => exact ⟨_, rfl⟩
  | cons first rest => exact ⟨_, rfl⟩

theorem spokenFor_arrays_iff {items rest : List Value} :
    (Value.array (.array items :: rest)).SpokenFor ↔
      (∀ v ∈ rest, v = .array [] ∨ GoType.ofValue v = GoType.ofValue (.array items)) ∧
        ∀ v ∈ Value.array items :: rest, v.SpokenFor := by
  constructor
  · intro h
    cases h with
    | scalar h => exact absurd rfl (h _)
    | plain h => exact absurd h (kind_array_ne_string items)
    | typed htype hspoken => exact ⟨htype, hspoken⟩
  · rintro ⟨htype, hspoken⟩
    exact .typed htype hspoken

theorem leafFits_iff_of_uniform (h : v.Uniform) : v.LeafFits (GoType.ofValue v) ↔ v.SpokenFor := by
  induction h with
  | strings texts => exact leafFits_strings_iff texts
  | integers ns =>
      exact leafFits_map_iff .integer .int64 ns (fun _ => ⟨rfl, nofun⟩) fun _ => ⟨rfl, .inl rfl⟩
  | floats xs =>
      exact leafFits_map_iff .float .float64 xs (fun _ => ⟨rfl, nofun⟩) fun _ => ⟨rfl, .inl rfl⟩
  | booleans bs =>
      exact leafFits_map_iff .boolean .bool bs (fun _ => ⟨rfl, nofun⟩) fun _ => ⟨rfl, .inl rfl⟩
  | @arrays items h ih =>
      cases items with
      | nil => exact iff_of_true (.inr ⟨_, rfl⟩) .empty
      | cons first rest =>
          obtain ⟨hfirst, hrest⟩ := List.forall_mem_cons.1 h
          obtain ⟨ihfirst, ihrest⟩ := List.forall_mem_cons.1 ih
          obtain ⟨firsts, rfl, -⟩ := hfirst.exists_items
          obtain ⟨t, ht⟩ := exists_ofValue_array firsts
          -- An inner array fits if it has the type of the first and is well typed by itself.
          have helement : ∀ v ∈ rest,
              (v.isString ∧ GoType.ofValue (.array firsts) = .string) ∨
                  v.LeafFits (GoType.ofValue (.array firsts)) ↔
                (v = .array [] ∨ GoType.ofValue v = GoType.ofValue (.array firsts)) ∧
                  v.SpokenFor := by
            intro v hv
            rw [← ihrest v hv]
            obtain ⟨items, rfl, hitems⟩ := (hrest v hv).exists_items
            rw [ht]
            exact (or_iff_right nofun).trans (leafFits_slice_iff hitems)
          rw [leafFits_cons rfl, ihfirst, spokenFor_arrays_iff, List.forall_mem_cons]
          constructor
          · rintro ⟨-, hspoken, hothers⟩
            exact ⟨fun v hv => ((helement v hv).1 (hothers v hv)).1, hspoken,
              fun v hv => ((helement v hv).1 (hothers v hv)).2⟩
          · rintro ⟨htype, hspoken, hothers⟩
            exact ⟨.inl rfl, hspoken, fun v hv => (helement v hv).2 ⟨htype v hv, hothers v hv⟩⟩

end Value

namespace Build

/-- The literal of an array of one type of a configuration file has the type that is stated in front
of it exactly if in every array of it the first element speaks for the others. -/
theorem uniform_typed_iff {store : FileStore} {v : Value} (hv : v.Uniform) {before after : Progress}
    {l : Literal} (h : Yields (literal store v) before l after) (ds : List Go.Declaration) :
    l.HasType ds (GoType.ofValue v) ↔ v.SpokenFor := by
  rw [hasType_of_literal v h]
  exact Value.leafFits_iff_of_uniform hv

/-- After a plain string all strings are plain. -/
theorem yields_strings (store : FileStore) (progress : Progress) {text : String}
    (htext : (Value.string text).kind = .string) (texts : List String) :
    Yields (literal store (.array ((text :: texts).map .string))) progress
      (.slice .string ((text :: texts).map .string)) progress := by
  have helements : Yields (elements store true (texts.map .string)) progress
      (texts.map .string) progress := by
    induction texts with
    | nil =>
        rw [List.map_nil, elements]
        exact (yields_pure _ _).2 ⟨rfl, rfl⟩
    | cons text texts ih =>
        rw [List.map_cons, elements, element]
        simp only [if_true, yields_bind, yields_pure]
        exact ⟨_, _, ⟨rfl, rfl⟩, _, _, ih, rfl, rfl⟩
  rw [List.map_cons, literal_cons, htext, (kind_eq_string_iff _).1 htext]
  simp only [Value.isTable, BEq.rfl, element, Bool.false_eq_true, if_false, if_true, yields_bind,
    yields_pure]
  exact ⟨_, _, ⟨rfl, rfl⟩, _, _, helements, rfl, rfl⟩

def wordLists : Value :=
  .array [.array [.string "a", .string "1s"], .array [], .array [.string "b"]]

def wordListsLiteral : Literal :=
  .slice (.slice .string) [.slice .string [.string "a", .string "1s"], .nil,
    .slice .string [.string "b"]]

theorem yields_wordLists (store : FileStore) (progress : Progress) :
    Yields (literal store wordLists) progress wordListsLiteral progress := by
  have hplain (text : String) (h : Value.meaning text = .plain) :
      (Value.string text).kind = .string := by
    rw [Value.kind, Value.stringKind, h]
  have hkind : ((Value.array [.string "a", .string "1s"]).kind == .string) = false := rfl
  have hfirst := yields_strings store progress (hplain "a" rfl) ["1s"]
  have hlast := yields_strings store progress (hplain "b" rfl) []
  have hempty : literal store (.array []) = pure .nil := literal.eq_def _ _
  rw [wordLists, literal_cons, hkind]
  simp only [Value.isTable, element, elements, Bool.false_eq_true, if_false, hempty, yields_bind,
    yields_pure]
  exact ⟨_, _, hfirst, _, _, ⟨_, _, ⟨rfl, rfl⟩, _, _, ⟨_, _, hlast, _, _, ⟨rfl, rfl⟩, rfl, rfl⟩,
    rfl, rfl⟩, rfl, rfl⟩

theorem uniform_wordLists : wordLists.Uniform := by
  refine .arrays (List.forall_mem_cons.2 ⟨.strings ["a", "1s"], ?_⟩)
  refine List.forall_mem_cons.2 ⟨.strings [], ?_⟩
  exact List.forall_mem_singleton.2 (.strings ["b"])

theorem uniform_typed_wordLists :
    wordLists.Uniform ∧
      Yields (literal (⟨[], [], [], 0⟩ : FileStore) wordLists) ⟨⟨none, 0, []⟩, []⟩ wordListsLiteral
        ⟨⟨none, 0, []⟩, []⟩ ∧
      wordListsLiteral.HasType [] (.slice (.slice .string)) := by
  have h := yields_wordLists (⟨[], [], [], 0⟩ : FileStore) ⟨⟨none, 0, []⟩, []⟩
  refine ⟨uniform_wordLists, h, (uniform_typed_iff uniform_wordLists h []).2 (.typed ?_ ?_)⟩
  · exact List.forall_mem_cons.2 ⟨.inl rfl, List.forall_mem_singleton.2 (.inr rfl)⟩
  · refine List.forall_mem_cons.2 ⟨.plain rfl, List.forall_mem_cons.2 ⟨.empty, ?_⟩⟩
    exact List.forall_mem_singleton.2 (.plain rfl)

/-- A string that is no duration has the wrong type after one that is. -/
theorem not_all_uniform_typed : ¬ ∀ (store : FileStore) (v : Value) (before after : Progress)
    (l : Literal), v.Uniform → Yields (literal store v) before l after →
      ∀ ds, l.HasType ds (GoType.ofValue v) := by
  intro h
  have hkind : ((Value.string "5s").kind == .string) = false := rfl
  have hfirst : Value.meaning "5s" = .duration 5000000000 := rfl
  have hsecond : Value.meaning "a" = .plain := rfl
  have hyields : Yields (literal (⟨[], [], [], 0⟩ : FileStore) (.array [.string "5s", .string "a"]))
      ⟨⟨none, 0, []⟩, []⟩ (.slice .duration [.duration 5000000000, .string "a"])
      ⟨⟨none, 0, []⟩, [.time]⟩ := by
    rw [literal_cons, hkind]
    simp only [Value.isTable, element, elements, string, hfirst, hsecond, Bool.false_eq_true,
      if_false, yields_bind, yields_pure]
    exact ⟨_, _, ⟨(), _, (yields_require _ _).2 rfl, rfl, rfl⟩, _, _,
      ⟨_, _, ⟨rfl, rfl⟩, _, _, ⟨rfl, rfl⟩, rfl, rfl⟩, rfl, rfl⟩
  have htyped := h _ _ _ _ _ (.strings ["5s", "a"]) hyields []
  simp [Literal.HasType, Go.ItemsHaveType, GoType.Takes] at htyped

end Build

end TypedConfig
