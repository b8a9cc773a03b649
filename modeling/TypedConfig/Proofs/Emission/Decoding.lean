import TypedConfig.Proofs.Binary64.Nearest
import TypedConfig.Proofs.Emission.Leaves
import TypedConfig.Proofs.Emission.Refusals
import TypedConfig.Proofs.Emission.Slices
import TypedConfig.Proofs.Go.Datum

/-!
Literals say what the configuration says. If the elements of every array are of one type, the text
of the literal, read as a literal of the type of the value, gives the value back
(`Build.literal_reads_back`). Only a file that cannot be loaded, or an integer that is too long to
write, stands in the way of a literal (`Build.needs_literal`).
-/

namespace TypedConfig

open Go (GoType Literal Datum Reads readValue)

namespace Value

/-- In every array all elements have the type of the first, or the first is a plain string and all
are strings. -/
inductive Homogeneous : Value → Prop
  | string (text : String) : Homogeneous (.string text)
  | integer (n : Int) : Homogeneous (.integer n)
  | float (x : Binary64.Finite) : Homogeneous (.float (.finite x))
  | boolean (b : Bool) : Homogeneous (.boolean b)
  | empty : Homogeneous (.array [])
  | strings {text : String} (texts : List String) (h : (Value.string text).kind = .string) :
      Homogeneous (.array ((text :: texts).map .string))
  | typed {first : Value} {rest : List Value}
      (htype : ∀ v ∈ rest, GoType.ofValue v = GoType.ofValue first)
      (hitems : ∀ v ∈ first :: rest, Homogeneous v) : Homogeneous (.array (first :: rest))

variable {v : Value} {items : List Value}

theorem Homogeneous.isTable_eq_false (h : v.Homogeneous) : v.isTable = false := by
  cases h <;> rfl

theorem exists_text (h : GoType.ofValue v = .string) : ∃ text, v = .string text := by
  cases v with
  | string text => exact ⟨text, rfl⟩
  | array items =>
      obtain ⟨t, ht⟩ := exists_ofValue_array items
      rw [ht] at h
      cases h
  | integer | float | boolean | moment | table | absent => cases h

theorem exists_texts (h : ∀ v ∈ items, GoType.ofValue v = .string) :
    ∃ texts : List String, items = texts.map .string := by
  induction items with
  | nil => exact ⟨[], rfl⟩
  | cons v items ih =>
      obtain ⟨hv, hitems⟩ := List.forall_mem_cons.1 h
      obtain ⟨text, rfl⟩ := exists_text hv
      obtain ⟨texts, rfl⟩ := ih hitems
      exact ⟨text :: texts, rfl⟩

theorem ofValue_ne_byte (v : Value) : GoType.ofValue v ≠ .byte := by
  cases v with
  | string text =>
      rw [GoType.ofValue]
      rcases stringKind_cases text with h | h | h <;> simp [h, GoType.ofStringKind]
  | array items =>
      obtain ⟨t, ht⟩ := exists_ofValue_array items
      simp [ht]
  | integer | float | boolean | moment | table | absent => rintro ⟨⟩

end Value

namespace Build

variable {α β : Type} {store : FileStore} {loader later : Loader} {before after : Progress}
  {l : Literal} {ls : List Literal} {v : Value} {items : List Value}

section Needs

variable {texts others : List String} {ns ms : List Int}

/-- The step succeeds exactly if these files can be loaded, in this order, and these integers are
not too long to write. It loads nothing else. -/
def Needs (store : FileStore) (texts : List String) (ns : List Int) (x : Build α) : Prop :=
  ∀ before loader, (∃ a after, Yields x before a after ∧ after.loader = loader) ↔
    outcome (Loader.loadAll store texts) before.loader = (.ok (), loader) ∧
      ∀ n ∈ ns, Decimal.IsWritable n

theorem needs_of_yields {x : Build α} {a : α} {after : Progress → Progress}
    (h : ∀ before, Yields x before a (after before))
    (hloader : ∀ before, (after before).loader = before.loader) : Needs store [] [] x := by
  intro before loader
  constructor
  · rintro ⟨b, last, hlast, rfl⟩
    have hsame : (after before) = last := (Prod.mk.inj ((h before).symm.trans hlast)).2
    rw [← hsame, hloader]
    exact ⟨rfl, nofun⟩
  · rintro ⟨hload, -⟩
    cases hload
    exact ⟨a, after before, h before, hloader before⟩

theorem needs_pure (a : α) : Needs store [] [] (pure a : Build α) :=
  needs_of_yields (fun _ => (yields_pure _ _).2 ⟨rfl, rfl⟩) fun _ => rfl

theorem needs_require (package : Go.Package) : Needs store [] [] (require package) :=
  needs_of_yields (a := ()) (fun _ => (yields_require _ _).2 rfl) fun _ => rfl

theorem Needs.bind {x : Build α} {f : α → Build β} (hx : Needs store texts ns x)
    (hf : ∀ a, Needs store others ms (f a)) :
    Needs store (texts ++ others) (ns ++ ms) (x >>= f) := by
  intro before loader
  rw [Loader.loadAll_append, outcome_bind_eq_ok, List.forall_mem_append]
  constructor
  · rintro ⟨b, after, h, hloader⟩
    obtain ⟨a, between, hxa, hfa⟩ := (yields_bind _ _ _).1 h
    obtain ⟨hfirst, hns⟩ := (hx before between.loader).1 ⟨a, between, hxa, rfl⟩
    obtain ⟨hrest, hms⟩ := (hf a between loader).1 ⟨b, after, hfa, hloader⟩
    exact ⟨⟨(), between.loader, hfirst, hrest⟩, hns, hms⟩
  · rintro ⟨⟨_, middle, hfirst, hrest⟩, hns, hms⟩
    obtain ⟨a, between, hxa, rfl⟩ := (hx before middle).2 ⟨hfirst, hns⟩
    obtain ⟨b, after, hfa, hloader⟩ := (hf a between loader).2 ⟨hrest, hms⟩
    exact ⟨b, after, (yields_bind _ _ _).2 ⟨a, between, hxa, hfa⟩, hloader⟩

theorem Needs.followed {x : Build α} {f : α → Build β} (hx : Needs store texts ns x)
    (hf : ∀ a, Needs store [] [] (f a)) : Needs store texts ns (x >>= f) := by
  rw [← List.append_nil texts, ← List.append_nil ns]
  exact hx.bind hf

theorem needs_load (text : String) : Needs store [text] [] (load store text) := by
  intro before loader
  have hone : outcome (Loader.loadAll store [text]) before.loader = (.ok (), loader) ↔
      ∃ content, outcome (Loader.load store text) before.loader = (.ok content, loader) := by
    rw [Loader.loadAll, outcome_bind_eq_ok]
    constructor
    · rintro ⟨content, _, hload, hrest⟩
      cases hrest
      exact ⟨content, hload⟩
    · rintro ⟨content, hload⟩
      exact ⟨content, loader, hload, rfl⟩
  rw [hone]
  constructor
  · rintro ⟨content, after, h, rfl⟩
    exact ⟨⟨content, kept_of_yields_load h⟩, nofun⟩
  · rintro ⟨⟨content, hload⟩, -⟩
    exact ⟨content, { before with loader }, outcome_load_of_ok hload, rfl⟩

theorem isWritable_of_writeInt {n : Int} {text : String} (h : Decimal.writeInt n = .ok text) :
    Decimal.IsWritable n := by
  unfold Decimal.writeInt at h
  split at h
  · next hn => exact hn
  · cases h

theorem needs_integer (n : Int) : Needs store [] [n] (integer n) := by
  intro before loader
  rw [List.forall_mem_singleton]
  constructor
  · rintro ⟨l, after, h, rfl⟩
    obtain ⟨rfl, rfl⟩ := yields_integer h
    simp only [integer, yields_bind, yields_ofExcept, except_mapError_eq_ok_iff] at h
    obtain ⟨_, _, ⟨hwrite, -⟩, -⟩ := h
    exact ⟨rfl, isWritable_of_writeInt hwrite⟩
  · rintro ⟨hload, hn⟩
    cases hload
    have hwrite : Decimal.writeInt n = .ok (toString n) := if_pos hn
    refine ⟨.integer n, before, ?_, rfl⟩
    rw [integer, hwrite]
    rfl

theorem needs_string (text : String) :
    Needs store (Value.embedded (Value.string text).plainEmbeddings) [] (string store text) := by
  rw [Value.embedded_string]
  unfold string
  cases hm : Value.meaning text with
  | reference =>
      rw [if_pos (Value.meaning_eq_reference_iff.1 hm)]
      exact (needs_load text).followed fun content => needs_pure _
  | duration n =>
      rw [if_neg (by simp [← Value.meaning_eq_reference_iff, hm])]
      exact (needs_require .time).followed fun _ => needs_pure _
  | plain =>
      rw [if_neg (by simp [← Value.meaning_eq_reference_iff, hm])]
      exact needs_pure _

theorem needs_float (x : Binary64) : Needs store [] [] (float x) := by
  unfold float
  split
  · exact needs_pure _
  · exact (needs_require .math).followed fun _ => needs_pure _

theorem needs_element {keeps : Bool}
    (hv : Needs store (Value.embedded v.plainEmbeddings) v.leafIntegers (literal store v)) :
    Needs store (Value.embedded (v.elementEmbeddings keeps)) v.leafIntegers
      (element store keeps v) := by
  rw [element.eq_def]
  split
  · next text =>
    rw [Value.embedded_elementEmbeddings_string]
    split
    · exact needs_pure _
    · exact needs_string text
  · next hstring =>
    rw [Value.elementEmbeddings_of_not_isString (Value.isString_eq_false hstring)]
    exact hv

mutual

/-- The literal of a value needs the files that it embeds and the integers in it. -/
theorem needs_literal : ∀ v : Value,
    Needs store (Value.embedded v.plainEmbeddings) v.leafIntegers (literal store v)
  | .string text => by
      rw [literal.eq_def]
      exact needs_string text
  | .integer n => by
      rw [literal.eq_def]
      exact needs_integer n
  | .float x => by
      rw [literal.eq_def]
      exact needs_float x
  | .boolean _ | .moment _ | .array [] | .absent => by
      rw [literal.eq_def]
      exact needs_pure _
  | .table entries => by
      rw [literal.eq_def, Value.plainEmbeddings, Value.embedded_bypassed]
      exact needs_pure _
  | .array (first :: rest) => by
      rw [literal_cons, Value.plainEmbeddings, Value.isTableArray_cons, Value.leafIntegers]
      split
      · rw [Value.embedded_bypassed]
        exact needs_pure _
      · rw [Value.keepsStrings_cons, Value.itemEmbeddings_cons, Value.embedded_append]
        exact (needs_element (needs_literal first)).bind fun _ =>
          (needs_elements rest).followed fun _ => needs_pure _

theorem needs_elements {keeps : Bool} : ∀ items : List Value,
    Needs store (Value.embedded (Value.itemEmbeddings keeps items)) (Value.itemIntegers items)
      (elements store keeps items)
  | [] => by
      rw [elements]
      exact needs_pure _
  | v :: rest => by
      rw [elements, Value.itemEmbeddings_cons, Value.embedded_append, Value.itemIntegers]
      exact (needs_element (needs_literal v)).bind fun _ =>
        (needs_elements rest).followed fun _ => needs_pure _

end

end Needs

section Decoding

/-- What a literal has to say for a value to be read back: a string itself, its nanoseconds if it is
a duration, or the bytes of the file that it refers to. A number is read as a decimal. -/
inductive Denotes (store : FileStore) (loader : Loader) : Value → Datum → Prop
  | string {text : String} (h : Value.meaning text = .plain) :
      Denotes store loader (.string text) (.string text)
  | duration {text : String} {n : Int} (h : Value.meaning text = .duration n) :
      Denotes store loader (.string text) (.duration n)
  | bytes {text : String} {content : ByteArray} (h : Value.meaning text = .reference)
      (hload : loader.Supplies store text content) :
      Denotes store loader (.string text) (.bytes content.toList)
  | integer (n : Int) : Denotes store loader (.integer n) (.number n)
  | float {x : Binary64.Finite} {q : ℚ} (h : (Binary64.nearest q).equal (.finite x)) :
      Denotes store loader (.float (.finite x)) (.number q)
  | boolean (b : Bool) : Denotes store loader (.boolean b) (.boolean b)
  | strings {text : String} {texts : List String} (h : (Value.string text).kind = .string) :
      Denotes store loader (.array ((text :: texts).map .string))
        (.list ((text :: texts).map .string))
  | list {items : List Value} {ds : List Datum} (hplain : Value.keepsStrings items = false)
      (h : List.Forall₂ (Denotes store loader) items ds) :
      Denotes store loader (.array items) (.list ds)

/-- Wherever it stands, and whatever is loaded after it, the literal of the value is read back. -/
def ReadsBack (store : FileStore) (v : Value) : Prop :=
  ∀ before l after later, Yields (literal store v) before l after → after.loader.Extends later →
    ∃ d, Denotes store later v d ∧
      ∀ depth, Reads (readValue (GoType.ofValue v)) (l.text depth).toList d

theorem Yields.unique {x : Build α} {a b : α} {last : Progress} (h : Yields x before a after)
    (h' : Yields x before b last) : a = b ∧ after = last := by
  obtain ⟨hresult, hlast⟩ := Prod.mk.inj (h.symm.trans h')
  exact ⟨Except.ok.inj hresult, hlast⟩

theorem itemTexts_eq_map (depth : Int) (ls : List Literal) :
    Go.itemTexts depth ls = ls.map (·.text depth) := by
  induction ls with
  | nil => rfl
  | cons l ls ih => rw [Go.itemTexts, ih, List.map_cons]

theorem readsBack_string (text : String) : ReadsBack store (.string text) := by
  intro before l after later h hext
  rw [literal.eq_def] at h
  unfold string at h
  rw [GoType.ofValue, Value.stringKind]
  cases hm : Value.meaning text with
  | reference =>
      simp only [hm, yields_bind, yields_pure] at h
      obtain ⟨content, _, hload, rfl, rfl⟩ := h
      have hsupplies := (Loader.kept_of_load (kept_of_yields_load hload)).2
      exact ⟨_, .bytes hm (hsupplies.mono hext), Go.reads_blob content.toList⟩
  | duration n =>
      simp only [hm, yields_bind, yields_pure, yields_require] at h
      obtain ⟨_, _, rfl, rfl, rfl⟩ := h
      exact ⟨_, .duration hm, fun _ => Go.reads_duration n⟩
  | plain =>
      simp only [hm, yields_pure] at h
      obtain ⟨rfl, rfl⟩ := h
      exact ⟨_, .string hm, fun _ => Go.reads_string text⟩

theorem readsBack_integer (n : Int) : ReadsBack store (.integer n) := by
  intro before l after later h hext
  rw [literal.eq_def] at h
  obtain ⟨rfl, rfl⟩ := yields_integer h
  exact ⟨_, .integer n, fun _ => Go.reads_integer n⟩

theorem readsBack_float (x : Binary64.Finite) : ReadsBack store (.float (.finite x)) := by
  intro before l after later h hext
  rw [literal.eq_def] at h
  obtain ⟨rfl, rfl⟩ := (yields_pure _ _).1 h
  exact ⟨_, .float (Binary64.nearest_decimal x), fun _ => Go.reads_float x⟩

theorem readsBack_boolean (b : Bool) : ReadsBack store (.boolean b) := by
  intro before l after later h hext
  rw [literal.eq_def] at h
  obtain ⟨rfl, rfl⟩ := (yields_pure _ _).1 h
  exact ⟨_, .boolean b, fun _ => Go.reads_boolean b⟩

theorem readsBack_empty : ReadsBack store (.array []) := by
  intro before l after later h hext
  rw [literal.eq_def] at h
  obtain ⟨rfl, rfl⟩ := (yields_pure _ _).1 h
  exact ⟨.list [], .list rfl .nil, fun _ => Go.reads_empty (by decide)⟩

theorem readsBack_strings {text : String} (htext : (Value.string text).kind = .string)
    (texts : List String) : ReadsBack store (.array ((text :: texts).map .string)) := by
  intro before l after later h hext
  obtain ⟨rfl, rfl⟩ := (yields_strings store before htext texts).unique h
  refine ⟨_, .strings htext, fun depth => ?_⟩
  have hitems : List.Forall₂ (Reads (readValue .string))
      ((Go.itemTexts depth ((text :: texts).map .string)).map String.toList)
      ((text :: texts).map .string) := by
    rw [itemTexts_eq_map, List.map_map, List.map_map, List.forall₂_map_left_iff,
      List.forall₂_map_right_iff, List.forall₂_same]
    exact fun s _ => Go.reads_string s
  have htype : GoType.string ≠ .byte := by decide
  rw [List.map_cons, GoType.ofValue, (kind_eq_string_iff _).1 htext, Literal.text]
  exact Go.reads_list htype hitems (List.cons_ne_nil _ _)

theorem element_false (store : FileStore) (v : Value) :
    element store false v = literal store v := by
  rw [element.eq_def]
  cases v with
  | string text => exact (literal.eq_def store (.string text)).symm
  | _ => rfl

theorem readsBack_elements {t : GoType} (htype : ∀ v ∈ items, GoType.ofValue v = t)
    (hitems : ∀ v ∈ items, ReadsBack store v)
    (h : Yields (elements store false items) before ls after)
    (hext : after.loader.Extends later) :
    ∃ ds, List.Forall₂ (Denotes store later) items ds ∧ ∀ depth,
      List.Forall₂ (Reads (readValue t)) ((Go.itemTexts depth ls).map String.toList) ds := by
  induction items generalizing before ls with
  | nil =>
      rw [elements] at h
      obtain ⟨rfl, rfl⟩ := (yields_pure _ _).1 h
      exact ⟨[], .nil, fun _ => .nil⟩
  | cons v items ih =>
      obtain ⟨rfl, htype⟩ := List.forall_mem_cons.1 htype
      obtain ⟨hv, hitems⟩ := List.forall_mem_cons.1 hitems
      rw [elements, element_false] at h
      simp only [yields_bind, yields_pure] at h
      obtain ⟨l, between, hl, ls, _, hls, rfl, rfl⟩ := h
      -- What the first element needs is still at hand when the others have been written.
      have hkept := (transcribes_elements items hls).loader.trans hext
      obtain ⟨d, hd, htext⟩ := hv _ _ _ _ hl hkept
      obtain ⟨ds, hds, htexts⟩ := ih htype hitems hls
      exact ⟨d :: ds, .cons hd hds, fun depth => .cons (htext depth) (htexts depth)⟩

theorem readsBack_typed {first : Value} {rest : List Value}
    (htype : ∀ v ∈ rest, GoType.ofValue v = GoType.ofValue first)
    (htable : first.isTable = false) (hitems : ∀ v ∈ first :: rest, ReadsBack store v) :
    ReadsBack store (.array (first :: rest)) := by
  by_cases hplain : first.kind = .string
  · have hfirst := (kind_eq_string_iff first).1 hplain
    obtain ⟨text, rfl⟩ := Value.exists_text hfirst
    obtain ⟨texts, rfl⟩ := Value.exists_texts fun v hv => (htype v hv).trans hfirst
    exact readsBack_strings hplain texts
  · intro before l after later h hext
    have hkeeps : (first.kind == .string) = false := by simpa using hplain
    rw [literal_cons, htable, hkeeps] at h
    simp only [Bool.false_eq_true, if_false, yields_bind, yields_pure] at h
    obtain ⟨l, between, hl, ls, after, hls, rfl, rfl⟩ := h
    have hall : Yields (elements store false (first :: rest)) before (l :: ls) after := by
      rw [elements]
      simp only [yields_bind, yields_pure]
      exact ⟨l, between, hl, ls, after, hls, rfl, rfl⟩
    obtain ⟨ds, hds, htexts⟩ :=
      readsBack_elements (List.forall_mem_cons.2 ⟨rfl, htype⟩) hitems hall hext
    refine ⟨.list ds, .list hkeeps hds, fun depth => ?_⟩
    rw [GoType.ofValue, Literal.text]
    exact Go.reads_list (Value.ofValue_ne_byte first) (htexts depth) (List.cons_ne_nil _ _)

theorem readsBack_of_homogeneous (hv : v.Homogeneous) : ReadsBack store v := by
  induction hv with
  | string text => exact readsBack_string text
  | integer n => exact readsBack_integer n
  | float x => exact readsBack_float x
  | boolean b => exact readsBack_boolean b
  | empty => exact readsBack_empty
  | strings texts htext => exact readsBack_strings htext texts
  | typed htype hitems ih =>
      have htable := (hitems _ List.mem_cons_self).isTable_eq_false
      exact readsBack_typed htype htable ih

/-- A literal is made if the files can be loaded and the integers written. Read by the rules of its
type, at any depth, it gives the value back. -/
theorem literal_reads_back (hv : v.Homogeneous) (store : FileStore) (before : Progress) :
    ((∃ l after, Yields (literal store v) before l after) ↔
      (∃ loader, outcome (Loader.loadAll store (Value.embedded v.plainEmbeddings)) before.loader =
        (.ok (), loader)) ∧ ∀ n ∈ v.leafIntegers, Decimal.IsWritable n) ∧
    ∀ l after, Yields (literal store v) before l after → ∃ d, Denotes store after.loader v d ∧
      ∀ depth, Go.read (GoType.ofValue v) (l.text depth) = some d := by
  constructor
  · constructor
    · rintro ⟨l, after, h⟩
      obtain ⟨hload, hintegers⟩ := (needs_literal v before after.loader).1 ⟨l, after, h, rfl⟩
      exact ⟨⟨_, hload⟩, hintegers⟩
    · rintro ⟨⟨loader, hload⟩, hintegers⟩
      obtain ⟨l, after, h, -⟩ := (needs_literal v before loader).2 ⟨hload, hintegers⟩
      exact ⟨l, after, h⟩
  · intro l after h
    obtain ⟨d, hd, hreads⟩ := readsBack_of_homogeneous hv _ _ _ _ h (.refl _)
    exact ⟨d, hd, fun depth => Go.read_of_reads (hreads depth)⟩

def quotations : Value :=
  .array [.array [.string "\x7d, \"", .string "1s"], .array [.string ","]]

theorem homogeneous_quotations : quotations.Homogeneous := by
  have htype : GoType.ofValue (.array [.string ","]) =
      GoType.ofValue (.array [.string "\x7d, \"", .string "1s"]) := rfl
  refine .typed (List.forall_mem_singleton.2 htype) (List.forall_mem_cons.2 ⟨?_, ?_⟩)
  · exact .strings ["1s"] rfl
  · exact List.forall_mem_singleton.2 (.strings [] rfl)

theorem literal_reads_back_quotations :
    quotations.Homogeneous ∧
      ∃ l after,
        Yields (literal (⟨[], [], [], 0⟩ : FileStore) quotations) ⟨⟨none, 0, []⟩, []⟩ l after ∧
        ∃ d, Denotes (⟨[], [], [], 0⟩ : FileStore) after.loader quotations d ∧
          ∀ depth, Go.read (.slice (.slice .string)) (l.text depth) = some d := by
  obtain ⟨hmade, hread⟩ :=
    literal_reads_back homogeneous_quotations (⟨[], [], [], 0⟩ : FileStore) ⟨⟨none, 0, []⟩, []⟩
  obtain ⟨l, after, h⟩ := hmade.2 ⟨⟨_, rfl⟩, nofun⟩
  exact ⟨homogeneous_quotations, l, after, h, hread l after h⟩

end Decoding

end Build

end TypedConfig
