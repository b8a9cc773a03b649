import TypedConfig.Proofs.Override.Pass

/-!
Passes of overrides one after the other. What a text is read as depends on the kind of the value
that it replaces, and a replaced value is of the same kind for all later texts, so two passes do
what one does with their environments merged (`Source.passes_compose`).
-/

namespace TypedConfig.Override

def merge (first second : Environment) : Environment :=
  second.filter (fun e => (lookUp second e.1).isSome) ++ first

def Apart (first second : Environment) : Prop :=
  ∀ name, lookUp first name = none ∨ lookUp second name = none

theorem lookUp_eq_some_iff {environment : Environment} {name text : String} :
    lookUp environment name = some text ↔
      environment.lookup name = some text ∧ text.isEmpty = false := by
  unfold lookUp
  cases environment.lookup name with
  | none => simp
  | some other =>
      dsimp only
      by_cases hempty : other.isEmpty
      · rw [if_pos hempty]
        refine iff_of_false nofun ?_
        rintro ⟨h, hset⟩
        cases h
        rw [hempty] at hset
        cases hset
      · rw [if_neg hempty]
        refine ⟨?_, fun h => h.1⟩
        rintro h
        cases h
        exact ⟨rfl, eq_false_of_ne_true hempty⟩

theorem lookup_filter_key (p : String → Bool) (environment : Environment) (name : String) :
    (environment.filter fun e => p e.1).lookup name =
      if p name then environment.lookup name else none := by
  induction environment with
  | nil => simp
  | cons e environment ih =>
      obtain ⟨key, text⟩ := e
      by_cases hkey : name = key
      · subst hkey
        cases hp : p name <;> simp [hp, ih]
      · have hne : (name == key) = false := beq_false_of_ne hkey
        cases hp : p key <;> simp [hp, List.lookup_cons, hne, ih]

theorem lookUp_merge (first second : Environment) (name : String) :
    lookUp (merge first second) name = (lookUp second name).or (lookUp first name) := by
  have hlookup : (merge first second).lookup name =
      (if (lookUp second name).isSome then second.lookup name else none).or
        (first.lookup name) := by
    rw [merge, List.lookup_append]
    exact congrArg (Option.or · _) (lookup_filter_key (fun key => (lookUp second key).isSome) _ _)
  cases hsecond : lookUp second name with
  | none =>
      rw [lookUp, hlookup, hsecond]
      rfl
  | some text =>
      obtain ⟨htext, hset⟩ := lookUp_eq_some_iff.1 hsecond
      refine lookUp_eq_some_iff.2 ⟨?_, hset⟩
      rw [hlookup, hsecond, htext]
      rfl

variable {text : String} {v w : Value}

theorem convert_of_converted (h : Converted text v w) (other : String) :
    convert other w = convert other v := by
  cases h with
  | boolean | integer | float => rfl
  | string hboolean hinteger hfloat =>
      cases v with
      | boolean b => exact absurd rfl (hboolean b)
      | integer n => exact absurd rfl (hinteger n)
      | float x => exact absurd rfl (hfloat x)
      | _ => rfl

namespace Source

/-- What stands in the place of a leaf takes the texts that the leaf took. -/
theorem replaceLeaf_of_replaces (h : Replaces text v w) (other : String) :
    replaceLeaf other w = replaceLeaf other v := by
  cases h with
  | array h =>
      obtain ⟨first, rest, rfl, hfirst⟩ := converted_of_convertArray h
      simp only [replaceLeaf, convertArray, convert_of_converted hfirst]
  | scalar hv h =>
      have hconvert := convert_of_converted (converted_of_convert h) other
      cases converted_of_convert h with
      | boolean | integer | float => rfl
      | string =>
          cases v with
          | array items => exact absurd rfl (hv items)
          | _ => exact congrArg (some <$> ·) hconvert

variable {source one two both : Source} {path : Path}

theorem replaceLeaf_of_becomes (h : source.Becomes path v w) (other : String) :
    replaceLeaf other w = replaceLeaf other v := by
  cases h with
  | unset | empty => rfl
  | replaced hset h => exact replaceLeaf_of_replaces h other

theorem conflict?_of_leafBecomes {before after : Path × Value} (h : one.LeafBecomes before after) :
    two.conflict? after = two.conflict? before := by
  unfold conflict?
  rw [h.1]
  simp only [replaceLeaf_of_becomes h.2]

theorem replaceLeaf_replacedLeaf (other : String) :
    replaceLeaf other (source.replacedLeaf path v) = replaceLeaf other v := by
  unfold replacedLeaf
  split
  · rfl
  · split
    · next h => exact replaceLeaf_of_replaces (replaces_of_replaceLeaf h) other
    · rfl

theorem replacedLeaf_nil : source.replacedLeaf path (.array []) = .array [] := by
  unfold replacedLeaf
  split
  · rfl
  · rfl

def Merges (one two both : Source) : Prop :=
  ∀ path, both.text? path = (two.text? path).or (one.text? path)

theorem replacedLeaf_replacedLeaf (hboth : Merges one two both)
    (h : two.conflict? (path, v) = none) :
    two.replacedLeaf path (one.replacedLeaf path v) = both.replacedLeaf path v := by
  have htext := hboth path
  unfold text? at htext
  unfold conflict? at h
  rw [replacedLeaf.eq_def two, replacedLeaf.eq_def both, htext]
  dsimp only at h
  cases hset : lookUp two.environment (two.variableName path) with
  | none => rfl
  | some text =>
      rw [hset] at h
      dsimp only [Option.some_or] at h ⊢
      -- What the first pass left behind takes the text as the leaf itself would have.
      rw [replaceLeaf_replacedLeaf]
      cases hreplace : replaceLeaf text v with
      | error cause =>
          rw [hreplace] at h
          cases h
      | ok replaced =>
          cases replaced with
          | some w => rfl
          | none =>
              -- An empty array stays one, whatever the first pass says.
              obtain rfl := eq_of_replaceLeaf_eq_none hreplace
              exact replacedLeaf_nil

theorem isTableArray_replacedItems {items : List Value} {i : Nat} :
    Value.isTableArray (.array (source.replacedItems path i items)) =
      Value.isTableArray (.array items) := by
  cases items with
  | nil => rfl
  | cons first rest => cases first <;> rfl

theorem replaced_replaced_of_isLeaf (hboth : Merges one two both) (hv : v.isLeaf)
    (h : ∀ leaf ∈ valueLeaves path v, two.conflict? leaf = none) :
    two.replaced path (one.replaced path v) = both.replaced path v := by
  rw [valueLeaves_of_isLeaf hv] at h
  rw [replaced_of_isLeaf hv, replaced_of_isLeaf (isLeaf_replacedLeaf hv), replaced_of_isLeaf hv]
  exact replacedLeaf_replacedLeaf hboth (h _ (List.mem_singleton_self _))

mutual

theorem replaced_replaced (hboth : Merges one two both) {path : Path} : ∀ v : Value,
    (∀ leaf ∈ valueLeaves path v, two.conflict? leaf = none) →
      two.replaced path (one.replaced path v) = both.replaced path v
  | .table entries, h => congrArg Value.table (replacedEntries_replacedEntries hboth entries h)
  | .array items, h => by
      by_cases htables : Value.isTableArray (.array items)
      · rw [valueLeaves, if_pos htables] at h
        have htables' : Value.isTableArray (.array (one.replacedItems path 0 items)) :=
          isTableArray_replacedItems.trans htables
        rw [replaced, if_pos htables, replaced, if_pos htables', replaced, if_pos htables]
        exact congrArg Value.array (replacedItems_replacedItems hboth items h)
      · refine replaced_replaced_of_isLeaf hboth ?_ h
        simpa [Value.isLeaf, Value.isTable] using htables
  | .string _, h | .integer _, h | .float _, h | .boolean _, h | .moment _, h | .absent, h =>
      replaced_replaced_of_isLeaf hboth rfl h

theorem replacedEntries_replacedEntries (hboth : Merges one two both) {path : Path} :
    ∀ entries : Table, (∀ leaf ∈ entryLeaves path entries, two.conflict? leaf = none) →
      two.replacedEntries path (one.replacedEntries path entries) =
        both.replacedEntries path entries
  | [], _ => rfl
  | (key, v) :: rest, h => by
      obtain ⟨hv, hrest⟩ := List.forall_mem_append.1 h
      exact congrArg₂ (fun v rest => (key, v) :: rest) (replaced_replaced hboth v hv)
        (replacedEntries_replacedEntries hboth rest hrest)

theorem replacedItems_replacedItems (hboth : Merges one two both) {path : Path} {i : Nat} :
    ∀ items : List Value, (∀ leaf ∈ tableLeaves path i items, two.conflict? leaf = none) →
      two.replacedItems path i (one.replacedItems path i items) = both.replacedItems path i items
  | [], _ => rfl
  | .table entries :: rest, h => by
      obtain ⟨hentries, hrest⟩ := List.forall_mem_append.1 h
      exact congrArg₂ (fun entries rest => Value.table entries :: rest)
        (replacedEntries_replacedEntries hboth entries hentries)
        (replacedItems_replacedItems hboth rest hrest)
  | .string _ :: rest, h | .integer _ :: rest, h | .float _ :: rest, h | .boolean _ :: rest, h
  | .moment _ :: rest, h | .array _ :: rest, h | .absent :: rest, h =>
      congrArg (_ :: ·) (replacedItems_replacedItems hboth rest h)

end

def Passes (source : Source) (tree result : Table) : Prop :=
  ∀ applied, (source.apply applied tree).2.failure = none ∧
    (source.apply applied tree).1 = result

theorem passes_iff {tree result : Table} : source.Passes tree result ↔
    (∀ leaf ∈ entryLeaves [] tree, source.conflict? leaf = none) ∧
      source.replacedEntries [] tree = result := by
  constructor
  · intro h
    obtain ⟨hfailure, hresult⟩ := h []
    rw [apply_eq_replaced hfailure] at hresult
    exact ⟨failure_apply_eq_none_iff.1 hfailure, hresult⟩
  · rintro ⟨hconverts, rfl⟩ applied
    have hfailure : (source.apply applied tree).2.failure = none :=
      failure_apply_eq_none_iff.2 hconverts
    exact ⟨hfailure, apply_eq_replaced hfailure⟩

theorem converts_iff {before after : List (Path × Value)}
    (h : List.Forall₂ one.LeafBecomes before after) :
    (∀ leaf ∈ after, two.conflict? leaf = none) ↔ ∀ leaf ∈ before, two.conflict? leaf = none := by
  induction h with
  | nil => exact Iff.rfl
  | cons h _ ih =>
      rw [List.forall_mem_cons, List.forall_mem_cons, conflict?_of_leafBecomes h, ih]

theorem conflict?_of_merges (hboth : Merges one two both) {leaf : Path × Value}
    (hone : one.conflict? leaf = none) (htwo : two.conflict? leaf = none) :
    both.conflict? leaf = none := by
  rw [conflict?_eq_none_iff] at hone htwo ⊢
  rintro cause ⟨text, htext, hrefuses⟩
  rw [hboth] at htext
  rcases Option.or_eq_some_iff.1 htext with htext | ⟨-, htext⟩
  · exact htwo cause ⟨text, htext, hrefuses⟩
  · exact hone cause ⟨text, htext, hrefuses⟩

variable {tree once twice : Table}

/-- The second of two passes ends well exactly if it would have on the first configuration. -/
theorem passes_after_iff (hboth : Merges one two both) (hone : one.Passes tree once) :
    two.Passes once twice ↔
      (∀ leaf ∈ entryLeaves [] tree, two.conflict? leaf = none) ∧
        both.replacedEntries [] tree = twice := by
  obtain ⟨hconverts, hresult⟩ := passes_iff.1 hone
  have hleaves := (leaves_apply hconverts []).1
  rw [(hone []).2] at hleaves
  rw [passes_iff, converts_iff hleaves]
  refine and_congr_right fun htwo => ?_
  rw [← hresult, replacedEntries_replacedEntries hboth tree htwo]

theorem merges_merge (marker : String) (first second : Environment) :
    Merges ⟨marker, first⟩ ⟨marker, second⟩ ⟨marker, merge first second⟩ :=
  fun path => lookUp_merge first second (Naming.variableName marker path)

theorem merges_self (source : Source) : Merges source source source :=
  fun _ => Option.or_self.symm

/-- Where no variable is set in both environments either may come first. -/
theorem merges_of_apart {first second : Environment} (h : Apart first second) (marker : String) :
    Merges ⟨marker, second⟩ ⟨marker, first⟩ ⟨marker, merge first second⟩ := by
  intro path
  rw [merges_merge marker first second path]
  rcases h (Naming.variableName marker path) with hfirst | hsecond
  · have hnone : text? ⟨marker, first⟩ path = none := hfirst
    rw [hnone, Option.or_none, Option.none_or]
  · have hnone : text? ⟨marker, second⟩ path = none := hsecond
    rw [hnone, Option.none_or, Option.or_none]

/-- Two passes that end well do what one does with the environments merged, which ends well too.
The same pass again changes nothing, and passes whose environments set no variable in common can
change places. -/
theorem passes_compose (marker : String) (tree : Table) :
    (∀ (first second : Environment) (once twice : Table), Passes ⟨marker, first⟩ tree once →
        Passes ⟨marker, second⟩ once twice → Passes ⟨marker, merge first second⟩ tree twice) ∧
      (∀ (environment : Environment) (once : Table), Passes ⟨marker, environment⟩ tree once →
        Passes ⟨marker, environment⟩ once once) ∧
      ∀ (first second : Environment) (once twice : Table), Apart first second →
        Passes ⟨marker, first⟩ tree once → Passes ⟨marker, second⟩ once twice →
          ∃ other, Passes ⟨marker, second⟩ tree other ∧ Passes ⟨marker, first⟩ other twice := by
  refine ⟨?_, ?_, ?_⟩
  · intro first second once twice hfirst hsecond
    have hboth := merges_merge marker first second
    obtain ⟨hconverts, hresult⟩ := (passes_after_iff hboth hfirst).1 hsecond
    refine passes_iff.2 ⟨fun leaf hleaf => ?_, hresult⟩
    exact conflict?_of_merges hboth ((passes_iff.1 hfirst).1 leaf hleaf) (hconverts leaf hleaf)
  · intro environment once h
    exact (passes_after_iff (merges_self _) h).2 (passes_iff.1 h)
  · intro first second once twice hapart hfirst hsecond
    have hmerge := merges_merge marker first second
    obtain ⟨hconverts, hresult⟩ := (passes_after_iff hmerge hfirst).1 hsecond
    have hother : Passes ⟨marker, second⟩ tree _ := passes_iff.2 ⟨hconverts, rfl⟩
    refine ⟨_, hother, ?_⟩
    -- Both orders are merged to the same environment, so they end with the same configuration.
    exact (passes_after_iff (merges_of_apart hapart marker) hother).2
      ⟨(passes_iff.1 hfirst).1, hresult⟩

def board : Table :=
  [("grid", .array [.array [.integer 1], .array []]), ("since", .moment (.date ⟨2024, 2, 29⟩)),
    ("port", .integer 8080), ("on", .boolean true)]

def rollout : Environment :=
  [("CONFIG_GRID", "1,2"), ("CONFIG_PORT", "80"), ("CONFIG_SINCE", "today")]

def hotfix : Environment :=
  [("CONFIG_PORT", "81"), ("CONFIG_GRID", "a, b , c"), ("CONFIG_SINCE", "")]

def rolledOut : Table :=
  [("grid", .array [.string "1", .string "2"]), ("since", .string "today"), ("port", .integer 80),
    ("on", .boolean true)]

def fixed : Table :=
  [("grid", .array [.string "a", .string "b", .string "c"]), ("since", .string "today"),
    ("port", .integer 81), ("on", .boolean true)]

theorem passes_rollout : Passes ⟨"CONFIG", rollout⟩ board rolledOut :=
  fun _ => ⟨rfl, rfl⟩

theorem apart_switch : Apart rollout [("CONFIG_ON", "f")] := by
  intro name
  by_cases hname : name = "CONFIG_ON"
  · subst hname
    exact .inl (by decide +kernel)
  · refine .inr ?_
    rw [lookUp, List.lookup_cons, beq_false_of_ne hname]
    rfl

/-- An array of arrays and a date have become strings when the second pass comes. -/
theorem passes_compose_rollout :
    Passes ⟨"CONFIG", rollout⟩ board rolledOut ∧ Passes ⟨"CONFIG", hotfix⟩ rolledOut fixed ∧
      Passes ⟨"CONFIG", merge rollout hotfix⟩ board fixed ∧
      Passes ⟨"CONFIG", rollout⟩ rolledOut rolledOut ∧
      ∃ other, Passes ⟨"CONFIG", [("CONFIG_ON", "f")]⟩ board other ∧
        Passes ⟨"CONFIG", rollout⟩ other
          (apply ⟨"CONFIG", [("CONFIG_ON", "f")]⟩ [] rolledOut).1 := by
  obtain ⟨hmerge, hagain, hchange⟩ := passes_compose "CONFIG" board
  have hhotfix : Passes ⟨"CONFIG", hotfix⟩ rolledOut fixed := fun _ => ⟨rfl, rfl⟩
  have hswitch : Passes ⟨"CONFIG", [("CONFIG_ON", "f")]⟩ rolledOut _ := fun _ => ⟨rfl, rfl⟩
  exact ⟨passes_rollout, hhotfix, hmerge _ _ _ _ passes_rollout hhotfix,
    hagain _ _ passes_rollout, hchange _ _ _ _ apart_switch passes_rollout hswitch⟩

end Source
end TypedConfig.Override
