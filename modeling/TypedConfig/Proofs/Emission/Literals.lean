import TypedConfig.Proofs.Emission.Run
import TypedConfig.Proofs.Go.Packages
import TypedConfig.Proofs.Naming.Identifier
import TypedConfig.Proofs.Value.Kind
import TypedConfig.Proofs.Value.Sorted

namespace TypedConfig

namespace Go

mutual

def Literal.needs : Literal → List Package
  | .nil | .boolean _ | .integer _ | .float (.finite _) | .string _ | .bytes _ => []
  | .float .nan | .float (.infinite _) => [.math]
  | .duration _ => [.time]
  | .slice _ items => itemNeeds items
  | .record _ fields => fieldNeeds fields
  | .records _ elements => itemNeeds elements

def itemNeeds : List Literal → List Package
  | [] => []
  | item :: rest => item.needs ++ itemNeeds rest

def fieldNeeds : List (String × Literal) → List Package
  | [] => []
  | (_, value) :: rest => value.needs ++ fieldNeeds rest

end

def Literal.isRecord : Literal → Bool
  | .record .. | .records .. => true
  | _ => false

theorem GoType.eq_time_of_mem {t : GoType} {p : Package} (h : p ∈ t.packages) : p = .time := by
  induction t with
  | duration => exact List.mem_singleton.1 h
  | slice element ih => exact ih h
  | _ => cases h

mutual

theorem Literal.mem_needs_iff {p : Package} (hp : p ≠ .time) :
    ∀ l : Literal, p ∈ l.needs ↔ p ∈ l.packages
  | .nil | .boolean _ | .integer _ | .float (.finite _) | .string _ | .bytes _
  | .float .nan | .float (.infinite _) => by
      simp only [Literal.needs, Literal.packages]
  | .duration n => by
      simp only [Literal.needs, Literal.packages, List.mem_singleton, hp, false_iff]
      split <;> simp [hp]
  | .slice element items => by
      have helement : p ∉ element.packages := mt GoType.eq_time_of_mem hp
      simp only [Literal.needs, Literal.packages, List.mem_append, helement, false_or]
      exact mem_itemNeeds_iff hp items
  | .record _ fields => by
      simp only [Literal.needs, Literal.packages]
      exact mem_fieldNeeds_iff hp fields
  | .records _ elements => by
      simp only [Literal.needs, Literal.packages]
      exact mem_itemNeeds_iff hp elements

theorem mem_itemNeeds_iff {p : Package} (hp : p ≠ .time) :
    ∀ items : List Literal, p ∈ itemNeeds items ↔ p ∈ itemPackages items
  | [] => by
      simp only [itemNeeds, itemPackages]
  | item :: rest => by
      simp only [itemNeeds, itemPackages, List.mem_append]
      exact or_congr (Literal.mem_needs_iff hp item) (mem_itemNeeds_iff hp rest)

theorem mem_fieldNeeds_iff {p : Package} (hp : p ≠ .time) :
    ∀ fields : List (String × Literal), p ∈ fieldNeeds fields ↔ p ∈ fieldPackages fields
  | [] => by
      simp only [fieldNeeds, fieldPackages]
  | (_, value) :: rest => by
      simp only [fieldNeeds, fieldPackages, List.mem_append]
      exact or_congr (Literal.mem_needs_iff hp value) (mem_fieldNeeds_iff hp rest)

end

end Go

namespace Value

open Go (GoType)

def hasTimedType (v : Value) : Bool :=
  (GoType.ofValue v).packages.contains .time

def stringSpellsTime (text : String) : Bool :=
  match meaning text with
  | .duration nanoseconds => nanoseconds != 0
  | _ => false

mutual

def leafSpellsTime : Value → Bool
  | .string text => stringSpellsTime text
  | .integer _ | .float _ | .boolean _ | .moment _ | .array [] | .table _ | .absent => false
  | .array (first :: rest) =>
    !first.isTable && (first.hasTimedType ||
      (!(first.kind == .string && first.isString) && first.leafSpellsTime) ||
      elementsSpellTime (first.kind == .string) rest)

def elementsSpellTime (keepsStrings : Bool) : List Value → Bool
  | [] => false
  | v :: rest =>
    (!(keepsStrings && v.isString) && v.leafSpellsTime) || elementsSpellTime keepsStrings rest

end

mutual

def spellsTime : Value → Bool
  | .table entries => entriesSpellTime entries
  | .array items =>
    if isTableArray (.array items) then recordsSpellTime items else leafSpellsTime (.array items)
  | v => v.leafSpellsTime

def entriesSpellTime : List (String × Value) → Bool
  | [] => false
  | (_, v) :: rest => v.spellsTime || entriesSpellTime rest

def recordsSpellTime : List Value → Bool
  | [] => false
  | .table entries :: rest => entriesSpellTime entries || recordsSpellTime rest
  | _ :: rest => recordsSpellTime rest

end

theorem entriesSpellTime_eq_any (entries : Table) :
    entriesSpellTime entries = entries.any (·.2.spellsTime) := by
  induction entries with
  | nil => rfl
  | cons entry entries ih => rw [entriesSpellTime, ih, List.any_cons]

end Value

namespace Build

open Go (GoType Literal itemNeeds itemPackages ItemsNamed fieldNeeds fieldPackages FieldsNamed)

/-- What a run has made: something with names for its types and fields, what was noted on the way
and whether it refers to `time`, which is noted only for values that have durations. -/
structure Made (named : Prop) (needs packages : List Go.Package) (timed durations : Bool)
    (before after : Progress) : Prop where
  named : named
  noted : after.packages = before.packages ++ needs
  time_mem_iff : .time ∈ packages ↔ timed
  durations_of_mem : .time ∈ needs → durations

abbrev MadeLiteral (l : Literal) (timed durations : Bool) (before after : Progress) : Prop :=
  Made l.Named l.needs l.packages timed durations before after

abbrev MadeItems (ls : List Literal) (timed durations : Bool) (before after : Progress) : Prop :=
  Made (ItemsNamed ls) (itemNeeds ls) (itemPackages ls) timed durations before after

abbrev MadeFields (fs : List (String × Literal)) (timed durations : Bool)
    (before after : Progress) : Prop :=
  Made (FieldsNamed fs) (fieldNeeds fs) (fieldPackages fs) timed durations before after

variable {σ : Type} [FileSystem σ] {store : σ} {before after : Progress} {l : Literal}

theorem named_ofValue (v : Value) : (GoType.ofValue v).Named := by
  fun_induction GoType.ofValue v with
  | case1 text =>
      unfold GoType.ofStringKind
      split <;> trivial
  | case7 first rest ih => exact ih
  | _ => trivial

/-- A literal without parts that refers to nothing. -/
theorem made_plain {named : Prop} {packages : List Go.Package} {durations : Bool} (hnamed : named)
    (hpackages : packages = []) : Made named [] packages false durations before before :=
  ⟨hnamed, (List.append_nil _).symm, by simp [hpackages], fun h => absurd h List.not_mem_nil⟩

section

variable {timed rest durations restDurations : Bool} {between : Progress} {ls : List Literal}
  {fs : List (String × Literal)}

theorem Made.append {named others : Prop}
    {needs otherNeeds packages otherPackages : List Go.Package}
    (h : Made named needs packages timed durations before between)
    (ho : Made others otherNeeds otherPackages rest restDurations between after) :
    Made (named ∧ others) (needs ++ otherNeeds) (packages ++ otherPackages) (timed || rest)
      (durations || restDurations) before after := by
  refine ⟨⟨h.named, ho.named⟩, ?_, ?_, fun hmem => ?_⟩
  · rw [ho.noted, h.noted, List.append_assoc]
  · rw [List.mem_append, h.time_mem_iff, ho.time_mem_iff, Bool.or_eq_true]
  · rw [Bool.or_eq_true]
    exact (List.mem_append.1 hmem).imp h.durations_of_mem ho.durations_of_mem

theorem Made.cons_item (hl : MadeLiteral l timed durations before between)
    (hls : MadeItems ls rest restDurations between after) :
    MadeItems (l :: ls) (timed || rest) (durations || restDurations) before after := by
  rw [MadeItems, ItemsNamed, itemNeeds, itemPackages]
  exact hl.append hls

theorem Made.cons_field {name : String} (hname : Go.IsName name)
    (hl : MadeLiteral l timed durations before between)
    (hfs : MadeFields fs rest restDurations between after) :
    MadeFields ((name, l) :: fs) (timed || rest) (durations || restDurations) before after := by
  rw [MadeFields, FieldsNamed, fieldNeeds, fieldPackages]
  exact { hl.append hfs with named := ⟨hname, hl.named, hfs.named⟩ }

theorem Made.slice {element : GoType} (helement : element.Named)
    (h : MadeItems ls timed durations before after) :
    MadeLiteral (.slice element ls) (element.packages.contains .time || timed) durations before
      after := by
  rw [MadeLiteral, Literal.Named, Literal.needs, Literal.packages]
  refine { h with named := ⟨helement, h.named⟩, time_mem_iff := ?_ }
  rw [List.mem_append, h.time_mem_iff, Bool.or_eq_true, List.contains_iff_mem]

theorem Made.record {typeName : Option String} (hname : ∀ name ∈ typeName, Go.IsName name)
    (h : MadeFields fs timed durations before after) :
    MadeLiteral (.record typeName fs) timed durations before after := by
  rw [MadeLiteral, Literal.Named, Literal.needs, Literal.packages]
  exact { h with named := ⟨hname, h.named⟩ }

theorem Made.records {typeName : String} (hname : Go.IsName typeName)
    (h : MadeItems ls timed durations before after) :
    MadeLiteral (.records typeName ls) timed durations before after := by
  rw [MadeLiteral, Literal.Named, Literal.needs, Literal.packages]
  exact { h with named := ⟨hname, h.named⟩ }

end

theorem madeLiteral_string {text : String} (h : Yields (string store text) before l after) :
    MadeLiteral l (Value.stringSpellsTime text) (Value.containsDuration (.string text)) before
      after := by
  unfold string at h
  simp only [Value.stringSpellsTime, Value.containsDuration, Value.kind, Value.stringKind]
  cases hm : Value.meaning text with
  | reference =>
      rw [hm] at h
      simp only [yields_bind, yields_pure] at h
      obtain ⟨content, between, hload, rfl, rfl⟩ := h
      exact ⟨trivial, by simpa [Literal.needs] using yields_load hload, by simp [Literal.packages],
        by simp [Literal.needs]⟩
  | duration n =>
      rw [hm] at h
      simp only [yields_bind, yields_pure, yields_require] at h
      obtain ⟨_, _, rfl, rfl, rfl⟩ := h
      refine ⟨trivial, rfl, ?_, fun _ => rfl⟩
      by_cases hn : n = 0 <;> simp [Literal.packages, hn]
  | plain =>
      rw [hm] at h
      obtain ⟨rfl, rfl⟩ := (yields_pure _ _).1 h
      exact made_plain trivial (by simp [Literal.packages])

theorem madeLiteral_float {x : Binary64} {durations : Bool} (h : Yields (float x) before l after) :
    MadeLiteral l false durations before after := by
  unfold float at h
  cases x with
  | finite x =>
      obtain ⟨rfl, rfl⟩ := (yields_pure _ _).1 h
      exact made_plain trivial (by simp [Literal.packages])
  | nan | infinite negative =>
      simp only [yields_bind, yields_pure, yields_require] at h
      obtain ⟨_, _, rfl, rfl, rfl⟩ := h
      exact ⟨trivial, rfl, by simp [Literal.packages], by simp [Literal.needs]⟩

theorem madeLiteral_element {keepsStrings : Bool} {v : Value}
    (hv : ∀ {before l after}, Yields (literal store v) before l after →
      MadeLiteral l v.leafSpellsTime v.containsDuration before after)
    (h : Yields (element store keepsStrings v) before l after) :
    MadeLiteral l (!(keepsStrings && v.isString) && v.leafSpellsTime) v.containsDuration before
      after := by
  rw [element.eq_def] at h
  split at h
  · next text =>
    split at h
    · next hkeeps =>
      obtain ⟨rfl, rfl⟩ := (yields_pure _ _).1 h
      rw [hkeeps]
      exact made_plain trivial (by simp [Literal.packages])
    · next hkeeps =>
      rw [Bool.not_eq_true] at hkeeps
      rw [hkeeps, Value.leafSpellsTime]
      exact madeLiteral_string h
  · next hstring =>
    have hnot : v.isString = false :=
      Value.isString_eq_false hstring
    simpa [hnot] using hv h

mutual

theorem madeLiteral_literal : ∀ (v : Value) {before l after},
    Yields (literal store v) before l after →
      MadeLiteral l v.leafSpellsTime v.containsDuration before after
  | .string text, before, l, after, h => by
      rw [literal.eq_def] at h
      rw [Value.leafSpellsTime]
      exact madeLiteral_string h
  | .integer n, before, l, after, h => by
      rw [literal.eq_def] at h
      rw [Value.leafSpellsTime]
      obtain ⟨rfl, rfl⟩ := yields_integer h
      exact made_plain trivial (by simp [Literal.packages])
  | .float x, before, l, after, h => by
      rw [literal.eq_def] at h
      rw [Value.leafSpellsTime]
      exact madeLiteral_float h
  | .boolean _, before, l, after, h | .moment _, before, l, after, h
  | .array [], before, l, after, h | .table _, before, l, after, h
  | .absent, before, l, after, h => by
      rw [literal.eq_def] at h
      rw [Value.leafSpellsTime]
      obtain ⟨rfl, rfl⟩ := (yields_pure _ _).1 h
      exact made_plain trivial (by simp [Literal.packages])
  | .array (first :: rest), before, l, after, h => by
      rw [literal_cons] at h
      rw [Value.leafSpellsTime]
      split at h
      · next htable =>
        obtain ⟨rfl, rfl⟩ := (yields_pure _ _).1 h
        rw [htable]
        exact made_plain trivial (by simp [Literal.packages])
      · next htable =>
        simp only [yields_bind, yields_pure] at h
        obtain ⟨l, between, hl, ls, last, hls, rfl, rfl⟩ := h
        have hitems := (madeLiteral_element (madeLiteral_literal first) hl).cons_item
          (madeItems_elements rest hls)
        have hslice := hitems.slice (named_ofValue first)
        rw [Bool.not_eq_true] at htable
        rw [htable, Value.containsDuration, Value.itemsContainDuration]
        simpa [Value.hasTimedType, Bool.or_assoc] using hslice

theorem madeItems_elements {keepsStrings : Bool} : ∀ (vs : List Value) {before ls after},
    Yields (elements store keepsStrings vs) before ls after →
      MadeItems ls (Value.elementsSpellTime keepsStrings vs) (Value.itemsContainDuration vs) before
        after
  | [], before, ls, after, h => by
      rw [elements] at h
      obtain ⟨rfl, rfl⟩ := (yields_pure _ _).1 h
      exact made_plain trivial rfl
  | v :: rest, before, ls, after, h => by
      rw [elements] at h
      simp only [yields_bind, yields_pure] at h
      obtain ⟨l, between, hl, ls, last, hls, rfl, rfl⟩ := h
      rw [Value.elementsSpellTime, Value.itemsContainDuration]
      exact (madeLiteral_element (madeLiteral_literal v) hl).cons_item (madeItems_elements rest hls)

end

/-- What is known of the field of each entry is known of all of them together. -/
theorem madeFields_mapM {scope : Scope} {entries : Table}
    (hentries : ∀ e ∈ entries, ∀ {before l after},
      Yields (field store scope e.1 e.2) before l after →
        MadeLiteral l e.2.spellsTime e.2.containsDuration before after)
    {fs : List (String × Literal)}
    (h : Yields (entries.mapM (namedField store scope)) before fs after) :
    MadeFields fs (entries.any (·.2.spellsTime)) (entries.any (·.2.containsDuration)) before
      after := by
  induction entries generalizing before fs with
  | nil =>
      rw [List.mapM_nil] at h
      obtain ⟨rfl, rfl⟩ := (yields_pure _ _).1 h
      exact made_plain trivial rfl
  | cons entry entries ih =>
      obtain ⟨hentry, hentries⟩ := List.forall_mem_cons.1 hentries
      rw [List.mapM_cons] at h
      simp only [namedField, yields_bind, yields_pure] at h
      obtain ⟨_, _, ⟨l, _, hl, rfl, rfl⟩, fs, _, hfs, rfl, rfl⟩ := h
      exact (hentry hl).cons_field (Naming.isName_pascalCase entry.1) (ih hentries hfs)

theorem madeFields_fields {scope : Scope} {entries : Table}
    (hentries : ∀ e ∈ entries, ∀ {before l after},
      Yields (field store scope e.1 e.2) before l after →
        MadeLiteral l e.2.spellsTime e.2.containsDuration before after)
    {fs : List (String × Literal)} (h : Yields (fields store scope entries) before fs after) :
    MadeFields fs (Value.entriesSpellTime entries) (Value.entriesContainDuration entries) before
      after := by
  rw [fields_eq_mapM] at h
  rw [Value.entriesSpellTime_eq_any, Value.entriesContainDuration_eq_any,
    ← Table.any_sortByKey entries (·.2.spellsTime), ← Table.any_sortByKey entries]
  exact madeFields_mapM (fun e he => hentries e (Table.mem_sortByKey.1 he)) h

mutual

theorem madeLiteral_field {scope : Scope} (hscope : scope.Named) (key : String) :
    ∀ (v : Value) {before l after}, Yields (field store scope key v) before l after →
      MadeLiteral l v.spellsTime v.containsDuration before after
  | .table entries, before, l, after, h => by
      rw [field_table] at h
      simp only [yields_bind, yields_pure] at h
      obtain ⟨fs, _, hfs, rfl, rfl⟩ := h
      rw [Value.spellsTime, Value.containsDuration]
      refine (madeFields_fields (madeLiteral_eachField (hscope.child key .config) entries)
        hfs).record ?_
      rintro _ ⟨⟩
      exact hscope.isName_typeName key .config
  | .array items, before, l, after, h => by
      rw [field_array] at h
      rw [Value.spellsTime, Value.containsDuration]
      split at h
      · next htables =>
        simp only [yields_bind, yields_pure] at h
        obtain ⟨ls, _, hls, rfl, rfl⟩ := h
        rw [if_pos htables]
        exact (madeItems_records (hscope.child key .item) items hls).records
          (hscope.isName_typeName key .item)
      · next htables =>
        rw [if_neg htables]
        exact madeLiteral_literal _ h
  | .string _, before, l, after, h | .integer _, before, l, after, h
  | .float _, before, l, after, h | .boolean _, before, l, after, h
  | .moment _, before, l, after, h | .absent, before, l, after, h => by
      rw [field.eq_def] at h
      simp only [Value.spellsTime]
      exact madeLiteral_literal _ h

theorem madeLiteral_eachField {scope : Scope} (hscope : scope.Named) :
    ∀ entries : List (String × Value), ∀ e ∈ entries, ∀ {before l after},
      Yields (field store scope e.1 e.2) before l after →
        MadeLiteral l e.2.spellsTime e.2.containsDuration before after
  | [] => List.forall_mem_nil _
  | (key, v) :: rest =>
      List.forall_mem_cons.2 ⟨madeLiteral_field hscope key v, madeLiteral_eachField hscope rest⟩

theorem madeItems_records {scope : Scope} (hscope : scope.Named) :
    ∀ (items : List Value) {before ls after}, Yields (records store scope items) before ls after →
      MadeItems ls (Value.recordsSpellTime items) (Value.itemsContainDuration items) before after
  | [], before, ls, after, h => by
      rw [records.eq_def] at h
      obtain ⟨rfl, rfl⟩ := (yields_pure _ _).1 h
      exact made_plain trivial rfl
  | .table entries :: rest, before, ls, after, h => by
      rw [records_table] at h
      simp only [yields_bind, yields_pure] at h
      obtain ⟨fs, _, hfs, ls, _, hls, rfl, rfl⟩ := h
      rw [Value.recordsSpellTime, Value.itemsContainDuration, Value.containsDuration]
      exact ((madeFields_fields (madeLiteral_eachField hscope entries) hfs).record
        (by simp)).cons_item (madeItems_records hscope rest hls)
  | .string _ :: rest, before, ls, after, h | .integer _ :: rest, before, ls, after, h
  | .float _ :: rest, before, ls, after, h | .boolean _ :: rest, before, ls, after, h
  | .moment _ :: rest, before, ls, after, h | .array _ :: rest, before, ls, after, h
  | .absent :: rest, before, ls, after, h => by
      rw [records.eq_def] at h
      simp only [Value.recordsSpellTime, Value.itemsContainDuration]
      have hrest := madeItems_records hscope rest h
      exact { hrest with durations_of_mem := fun hmem =>
        Bool.or_eq_true_iff.2 (.inr (hrest.durations_of_mem hmem)) }

end

theorem isRecord_of_string {text : String} (h : Yields (string store text) before l after) :
    l.isRecord = false := by
  unfold string at h
  cases hm : Value.meaning text with
  | plain =>
      rw [hm] at h
      obtain ⟨rfl, -⟩ := (yields_pure _ _).1 h
      rfl
  | reference | duration =>
      simp only [hm, yields_bind, yields_pure] at h
      obtain ⟨_, _, _, rfl, -⟩ := h
      rfl

theorem isRecord_of_float {x : Binary64} (h : Yields (float x) before l after) :
    l.isRecord = false := by
  unfold float at h
  cases x with
  | finite x =>
      obtain ⟨rfl, -⟩ := (yields_pure _ _).1 h
      rfl
  | nan | infinite =>
      simp only [yields_bind, yields_pure] at h
      obtain ⟨_, _, _, rfl, -⟩ := h
      rfl

theorem isRecord_of_literal {v : Value} (h : Yields (literal store v) before l after) :
    l.isRecord = false := by
  cases v with
  | string text =>
      rw [literal.eq_def] at h
      exact isRecord_of_string h
  | integer n =>
      rw [literal.eq_def] at h
      obtain ⟨rfl, -⟩ := yields_integer h
      rfl
  | float x =>
      rw [literal.eq_def] at h
      exact isRecord_of_float h
  | array items =>
      cases items with
      | nil =>
          rw [literal.eq_def] at h
          obtain ⟨rfl, -⟩ := (yields_pure _ _).1 h
          rfl
      | cons first rest =>
          rw [literal_cons] at h
          split at h
          · obtain ⟨rfl, -⟩ := (yields_pure _ _).1 h
            rfl
          · simp only [yields_bind, yields_pure] at h
            obtain ⟨_, _, _, _, _, _, rfl, -⟩ := h
            rfl
  | boolean | moment | table | absent =>
      rw [literal.eq_def] at h
      obtain ⟨rfl, -⟩ := (yields_pure _ _).1 h
      rfl

/-- Only tables and arrays of tables are written as records. -/
theorem packages_of_isRecord {scope : Scope} {key : String} {v : Value}
    (h : Yields (field store scope key v) before l after) (hl : l.isRecord) :
    (GoType.ofValue v).packages = [] := by
  rw [field.eq_def] at h
  split at h
  · rfl
  · next items =>
    split at h
    · next htables =>
      cases items with
      | nil => cases htables
      | cons first rest =>
        cases first with
        | table entries => rfl
        | _ => cases htables
    · rw [isRecord_of_literal h] at hl
      cases hl
  · rw [isRecord_of_literal h] at hl
    cases hl

end Build

end TypedConfig
