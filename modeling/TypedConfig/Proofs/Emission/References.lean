import TypedConfig.Proofs.Emission.Imports

namespace TypedConfig

open Go (Declaration GoType Literal Package SourceFile)

/-- Whatever a declaration refers to was noted, `time` excepted. -/
theorem Go.Declaration.mem_needs_of_mem_packages {p : Package} (hp : p ≠ .time) {d : Declaration}
    (h : p ∈ d.packages) : p ∈ d.needs := by
  have htype (t : GoType) : p ∉ t.packages := mt GoType.eq_time_of_mem hp
  cases d with
  | record name fields =>
      obtain ⟨field, -, h⟩ := List.mem_flatMap.1 h
      exact absurd h (htype field.type)
  | placeholder name => cases h
  | accessor a =>
      obtain h | h := List.mem_append.1 h
      · exact absurd h (htype a.type)
      · by_cases hkind : a.kind = .table
        · rw [hkind] at h
          exact absurd h (htype a.type)
        · obtain h | h | ⟨rfl, -⟩ := (Emitter.mem_bodyPackages hkind p).1 h
          · refine List.mem_append_left _ ?_
            cases hfallback : a.fallback with
            | none =>
                rw [hfallback] at h
                cases h
            | some l =>
                rw [hfallback] at h
                exact (Literal.mem_needs_iff hp l).2 h
          · exact List.mem_append_right _ h
          · exact absurd rfl hp
  | group members =>
      obtain ⟨v, hv, h⟩ := List.mem_flatMap.1 h
      refine List.mem_flatMap.2 ⟨v, hv, ?_⟩
      obtain h | h := List.mem_append.1 h
      · cases htyped : v.type with
        | none =>
            rw [htyped] at h
            cases h
        | some t =>
            rw [htyped] at h
            exact absurd h (htype t)
      · cases hvalue : v.value with
        | none =>
            rw [hvalue] at h
            cases h
        | some l =>
            rw [hvalue] at h
            exact (Literal.mem_needs_iff hp l).2 h

namespace Value

theorem containsDuration_of_kind {text : String} (h : stringKind text = .duration) :
    (Value.string text).containsDuration := by
  simp [containsDuration, kind, h]

/-- A type takes `time` only from a duration at the front of the arrays it was read off. -/
theorem containsDuration_of_hasTimedType {v : Value} (h : v.hasTimedType) : v.containsDuration := by
  rw [hasTimedType, List.contains_iff_mem] at h
  fun_induction GoType.ofValue v with
  | case1 text =>
      obtain hkind | hkind | hkind := stringKind_cases text
      · rw [hkind] at h
        cases h
      · exact containsDuration_of_kind hkind
      · rw [hkind] at h
        cases h
  | case7 first rest ih =>
      rw [containsDuration, itemsContainDuration, ih h, Bool.true_or]
  | case2 | case3 | case4 | case5 | case6 | case8 | case9 => cases h

theorem containsDuration_of_stringSpellsTime {text : String} (h : stringSpellsTime text) :
    (Value.string text).containsDuration := by
  refine containsDuration_of_kind ?_
  unfold stringSpellsTime at h
  unfold stringKind
  split at h
  · next n hn => rw [hn]
  · cases h

mutual

theorem containsDuration_of_leafSpellsTime : ∀ {v : Value}, v.leafSpellsTime → v.containsDuration
  | .string text, h => by
      rw [leafSpellsTime] at h
      exact containsDuration_of_stringSpellsTime h
  | .array (first :: rest), h => by
      rw [leafSpellsTime] at h
      simp only [Bool.and_eq_true, Bool.or_eq_true] at h
      rw [containsDuration, itemsContainDuration, Bool.or_eq_true]
      obtain ⟨-, (htyped | ⟨-, hfirst⟩) | hrest⟩ := h
      · exact .inl (containsDuration_of_hasTimedType htyped)
      · exact .inl (containsDuration_of_leafSpellsTime hfirst)
      · exact .inr (itemsContainDuration_of_elementsSpellTime hrest)
  | .integer _, h | .float _, h | .boolean _, h | .moment _, h | .array [], h | .table _, h
  | .absent, h => by
      rw [leafSpellsTime] at h
      cases h

theorem itemsContainDuration_of_elementsSpellTime {keepsStrings : Bool} : ∀ {items : List Value},
    elementsSpellTime keepsStrings items → itemsContainDuration items
  | [], h => by
      rw [elementsSpellTime] at h
      cases h
  | v :: rest, h => by
      rw [elementsSpellTime] at h
      simp only [Bool.and_eq_true, Bool.or_eq_true] at h
      rw [itemsContainDuration, Bool.or_eq_true]
      obtain ⟨-, hfirst⟩ | hrest := h
      · exact .inl (containsDuration_of_leafSpellsTime hfirst)
      · exact .inr (itemsContainDuration_of_elementsSpellTime hrest)

end

mutual

theorem containsDuration_of_spellsTime : ∀ {v : Value}, v.spellsTime → v.containsDuration
  | .table entries, h => by
      rw [spellsTime] at h
      rw [containsDuration]
      exact entriesContainDuration_of_entriesSpellTime h
  | .array items, h => by
      rw [spellsTime] at h
      split at h
      · rw [containsDuration]
        exact itemsContainDuration_of_recordsSpellTime h
      · exact containsDuration_of_leafSpellsTime h
  | .string _, h | .integer _, h | .float _, h | .boolean _, h | .moment _, h | .absent, h => by
      simp only [spellsTime] at h
      exact containsDuration_of_leafSpellsTime h

theorem entriesContainDuration_of_entriesSpellTime : ∀ {entries : List (String × Value)},
    entriesSpellTime entries → entriesContainDuration entries
  | [], h => by
      rw [entriesSpellTime] at h
      cases h
  | (key, v) :: rest, h => by
      rw [entriesSpellTime, Bool.or_eq_true] at h
      rw [entriesContainDuration, Bool.or_eq_true]
      exact h.imp containsDuration_of_spellsTime entriesContainDuration_of_entriesSpellTime

theorem itemsContainDuration_of_recordsSpellTime : ∀ {items : List Value},
    recordsSpellTime items → itemsContainDuration items
  | [], h => by
      rw [recordsSpellTime] at h
      cases h
  | .table entries :: rest, h => by
      rw [recordsSpellTime, Bool.or_eq_true] at h
      rw [itemsContainDuration, containsDuration, Bool.or_eq_true]
      exact h.imp entriesContainDuration_of_entriesSpellTime
        itemsContainDuration_of_recordsSpellTime
  | .string _ :: rest, h | .integer _ :: rest, h | .float _ :: rest, h | .boolean _ :: rest, h
  | .moment _ :: rest, h | .array _ :: rest, h | .absent :: rest, h => by
      rw [itemsContainDuration, Bool.or_eq_true]
      exact .inr (itemsContainDuration_of_recordsSpellTime h)

end

end Value

namespace Emitter

open Build (Yields)

theorem containsDuration_of_accessorShowsTime {v : Value} (h : accessorShowsTime v) :
    v.containsDuration := by
  rw [accessorShowsTime, Bool.or_eq_true, Bool.and_eq_true] at h
  obtain h | ⟨-, h⟩ := h
  · exact Value.containsDuration_of_hasTimedType h
  · exact Value.containsDuration_of_spellsTime h

theorem containsDuration_of_valueShowsTime {mode : Mode} {v : Value} (h : valueShowsTime mode v) :
    v.containsDuration := by
  cases mode with
  | static =>
      obtain h | h := Bool.or_eq_true_iff.1 h
      · exact Value.containsDuration_of_hasTimedType h
      · exact Value.containsDuration_of_spellsTime h
  | getter => exact containsDuration_of_accessorShowsTime h

/-- What shows `time` for one field of a record type is a duration in it. -/
theorem fieldsContainDuration_of_typeShowsTime {mode : Mode} {s : Schema}
    (h : typeShowsTime mode s) : Value.entriesContainDuration s.fields := by
  have hany {f : Value → Bool} (hf : ∀ {v}, f v → v.containsDuration)
      (h : s.fields.any (f ·.2)) : Value.entriesContainDuration s.fields := by
    rw [Value.entriesContainDuration_eq_any]
    obtain ⟨field, hfield, h⟩ := List.any_eq_true.1 h
    exact List.any_eq_true.2 ⟨field, hfield, hf h⟩
  unfold typeShowsTime at h
  split at h
  · exact hany Value.containsDuration_of_hasTimedType h
  · split at h
    · exact hany Value.containsDuration_of_hasTimedType h
    · exact hany containsDuration_of_accessorShowsTime h

/-- Where `time` is referred to, the scan finds a duration. -/
theorem entriesContainDuration_of_showsTime {mode : Mode} {tree : Table}
    (h : showsTime mode tree (Catalog.collect tree)) : Value.entriesContainDuration tree := by
  obtain h | h := Bool.or_eq_true_iff.1 h
  · obtain ⟨s, hs, h⟩ := List.any_eq_true.1 h
    exact (Catalog.mem_collect hs).entriesContainDuration
      (fieldsContainDuration_of_typeShowsTime h)
  · obtain ⟨entry, hentry, h⟩ := List.any_eq_true.1 h
    rw [Value.entriesContainDuration_eq_any]
    exact List.any_eq_true.2 ⟨entry, hentry, containsDuration_of_valueShowsTime h⟩

theorem imports_sublist {e : Emitter} {store : FileStore} {before after : Progress} {tree : Table}
    {catalog : Catalog} {f : SourceFile} (h : Yields (e.emit store tree catalog) before f after) :
    f.imports.Sublist Package.all := by
  have hheader {entries : Table} {ds : List Declaration} {before : Progress}
      (h : Yields (do
        if Value.entriesContainDuration entries then Build.require .time
        let packages := (← get).packages
        return (⟨e.package, Package.all.filter (packages.contains ·), ds⟩ : SourceFile))
        before f after) : f.imports.Sublist Package.all := by
    split at h
    · simp only [Build.yields_bind, Build.yields_pure] at h
      obtain ⟨_, _, -, _, _, -, rfl, -⟩ := h
      exact List.filter_sublist
    · simp only [Build.yields_bind, Build.yields_pure] at h
      obtain ⟨_, _, -, rfl, -⟩ := h
      exact List.filter_sublist
  unfold emit at h
  cases hmode : e.mode with
  | static | getter =>
      simp only [hmode] at h
      obtain ⟨_, _, -, h⟩ := (Build.yields_bind _ _ _).1 h
      obtain ⟨_, _, -, h⟩ := (Build.yields_bind _ _ _).1 h
      exact hheader h

/-- Every package whose name stands before a point in the declarations, outside string literals, is
imported, and the imports are listed once each in the order of their names. -/
theorem imports_complete (e : Emitter) (store : FileStore) (before : Progress) (tree : Table)
    {f : SourceFile} {after : Progress}
    (h : Yields (e.emit store tree (Catalog.collect tree)) before f after) :
    (∀ p, f.RefersTo p → p ∈ f.imports) ∧ (f.imports.map Package.name).Pairwise (· < ·) := by
  obtain ⟨last, hds, himports⟩ := declared_emit
    (fun s hs => (Catalog.mem_collect hs).isName Scope.named_root) h
  refine ⟨fun p hrefers => (himports p).2 ?_, ?_⟩
  · have hpackage := (SourceFile.refersTo_iff hds.named p).1 hrefers
    -- Only `time` is referred to by types, which note nothing.
    by_cases hp : p = .time
    · subst hp
      refine .inr ⟨rfl, ?_⟩
      exact entriesContainDuration_of_showsTime (hds.time_mem_iff.1 hpackage)
    · obtain ⟨d, hd, hpackage⟩ := hpackage
      left
      rw [hds.noted]
      exact List.mem_append_right _ (List.mem_flatMap.2 ⟨d, hd, d.mem_needs_of_mem_packages hp
        hpackage⟩)
  · have hall : (Package.all.map Package.name).Pairwise (· < ·) := by decide
    exact hall.sublist ((imports_sublist h).map Package.name)

def farLimits : Table :=
  [("limit", .float (.infinite false)), ("waits", .array [.array [.string "5s"]])]

def farLimitsFile : SourceFile :=
  ⟨"config", [.math, .time], [.group [
    ⟨"Limit", some .float64, some (.float (.infinite false))⟩,
    ⟨"Waits", some (.slice (.slice .duration)),
      some (.slice (.slice .duration) [.slice .duration [.duration 5000000000]])⟩]]⟩

theorem yields_farLimits (store : FileStore) (loader : Loader) :
    Yields (emit ⟨.static, "config", "CONFIG"⟩ store farLimits (Catalog.collect farLimits))
      ⟨loader, []⟩ farLimitsFile ⟨loader, [.math, .time, .time]⟩ := by
  have hlimit : Build.field store .root "limit" (.float (.infinite false)) =
      Build.float (.infinite false) := by
    rw [Build.field.eq_def]
    exact Build.literal.eq_def store _
  have hwait : Build.literal store (.array [.string "5s"]) = do
      let wait ← Build.string store "5s"
      return .slice .duration [wait] := by
    rw [Build.literal_cons, Build.element, Build.elements]
    rfl
  have hwaits : Build.field store .root "waits" (.array [.array [.string "5s"]]) = do
      let wait ← Build.string store "5s"
      return .slice (.slice .duration) [.slice .duration [wait]] := by
    have hfield : Build.field store .root "waits" (.array [.array [.string "5s"]]) =
        Build.literal store (.array [.array [.string "5s"]]) := by
      rw [Build.field.eq_def]
      rfl
    rw [hfield, Build.literal_cons, Build.element, hwait, Build.elements]
    · rfl
    · simp
  have hsorted : Table.sortByKey farLimits =
      [("limit", .float (.infinite false)), ("waits", .array [.array [.string "5s"]])] := rfl
  rw [emit]
  simp only [staticValues, hsorted, List.mapM_cons, List.mapM_nil, assignment, hlimit, hwaits]
  rfl

theorem imports_complete_farLimits :
    Yields (emit ⟨.static, "config", "CONFIG"⟩ (⟨[], [], [], 0⟩ : FileStore) farLimits
        (Catalog.collect farLimits)) ⟨⟨none, 0, []⟩, []⟩ farLimitsFile
        ⟨⟨none, 0, []⟩, [.math, .time, .time]⟩ ∧
      (farLimitsFile.RefersTo .math ∧ farLimitsFile.RefersTo .time) ∧
      (.math ∈ farLimitsFile.imports ∧ .time ∈ farLimitsFile.imports) ∧
      (farLimitsFile.imports.map Package.name).Pairwise (· < ·) := by
  have h := yields_farLimits (⟨[], [], [], 0⟩ : FileStore) ⟨none, 0, []⟩
  have hmath : farLimitsFile.RefersTo .math := by decide +kernel
  have htime : farLimitsFile.RefersTo .time := by decide +kernel
  obtain ⟨himports, hsorted⟩ := imports_complete _ _ _ _ h
  exact ⟨h, ⟨hmath, htime⟩, ⟨himports _ hmath, himports _ htime⟩, hsorted⟩

end Emitter

end TypedConfig
