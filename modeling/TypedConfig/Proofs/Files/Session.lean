import TypedConfig.Proofs.Files.Loading
import Mathlib.Data.List.Induction

namespace TypedConfig.Loader

def keyOf (store : FileStore) (base : Option Path) (text : String) : Option Path :=
  (Reference.path base text).toOption.map store.absolute

structure Lookup where
  store : FileStore
  text : String
  result : Except ReferenceError ByteArray

namespace Lookup

def key? (base : Option Path) (l : Lookup) : Option Path :=
  keyOf l.store base l.text

def contentAt? (base : Option Path) (key : Path) (l : Lookup) : Option ByteArray :=
  if l.key? base = some key then l.result.toOption else none

end Lookup

def firstRead (base : Option Path) (lookups : List Lookup) (key : Path) : Option ByteArray :=
  lookups.findSome? (Lookup.contentAt? base key)

/-- What a lookup returns after others: what was first read at its path, or else what stands
there. -/
def due (base : Option Path) (limit : Int) (earlier : List Lookup) (l : Lookup) :
    Except ReferenceError ByteArray :=
  match (l.key? base).bind (firstRead base earlier) with
  | some content => .ok content
  | none => Reference.resolve l.store base limit l.text

/-- Every lookup returns what is due after those before it. -/
def AllDue (base : Option Path) (limit : Int) (lookups : List Lookup) : Prop :=
  ∀ earlier l later, lookups = earlier ++ l :: later → l.result = due base limit earlier l

inductive Performs : Loader → List Lookup → Loader → Prop
  | nil (loader : Loader) : Performs loader [] loader
  | cons {before between after : Loader} {l : Lookup} {lookups : List Lookup}
      (first : outcome (load l.store l.text) before = (l.result, between))
      (rest : Performs between lookups after) : Performs before (l :: lookups) after

/-- The loader holds what was first read at each path, and nothing else. -/
structure Remembers (base : Option Path) (limit : Int) (lookups : List Lookup)
    (loader : Loader) : Prop where
  beneath : loader.base = base
  bound : loader.limit = limit
  held : ∀ key, loader.cache.lookup key = firstRead base lookups key

section Lookups

variable {base : Option Path} {limit : Int} {store : FileStore} {before between after : Loader}
  {earlier lookups later : List Lookup} {l : Lookup} {key : Path} {content : ByteArray}

theorem remembers_new (base : Option Path) (limit : Int) :
    Remembers base limit [] (new base limit) :=
  ⟨rfl, rfl, fun _ => rfl⟩

theorem firstRead_concat : firstRead base (earlier ++ [l]) key =
    (firstRead base earlier key).or (l.contentAt? base key) := by
  rw [firstRead, List.findSome?_append, firstRead, List.findSome?_singleton]

theorem Lookup.contentAt?_self (h : l.key? base = some key) :
    l.contentAt? base key = l.result.toOption :=
  if_pos h

theorem Lookup.contentAt?_of_ne (h : l.key? base ≠ some key) : l.contentAt? base key = none :=
  if_neg h

theorem Lookup.contentAt?_eq_some_iff : l.contentAt? base key = some content ↔
    l.key? base = some key ∧ l.result = .ok content := by
  rw [contentAt?]
  by_cases hkey : l.key? base = some key
  · rw [if_pos hkey, and_iff_right hkey]
    cases l.result <;> simp [Except.toOption]
  · rw [if_neg hkey]
    simp [hkey]

theorem Lookup.contentAt?_of_error {error : ReferenceError} (h : l.result = .error error) :
    l.contentAt? base key = none := by
  rw [contentAt?, h]
  exact ite_self none

theorem eq_of_load_error {text : String} {error : ReferenceError}
    (h : outcome (load store text) before = (.error error, after)) : after = before := by
  cases loads_of_outcome h with
  | refused => rfl

theorem Lookup.key?_of_path {path : Path} (h : Reference.path base l.text = .ok path) :
    l.key? base = some (l.store.absolute path) := by
  rw [key?, keyOf, h]
  rfl

section Remembering

variable {loader : Loader} {path : Path}

theorem Remembers.due_of_held (h : Remembers base limit earlier loader)
    (hpath : Reference.path base l.text = .ok path)
    (hheld : loader.cache.lookup (l.store.absolute path) = some content) :
    due base limit earlier l = .ok content := by
  rw [due, Lookup.key?_of_path hpath, Option.bind_some, ← h.held, hheld]

theorem Remembers.due_of_new (h : Remembers base limit earlier loader)
    (hnew : loader.IsNew l.store l.text) :
    due base limit earlier l = Reference.resolve l.store base limit l.text := by
  obtain rfl := h.beneath
  cases hpath : Reference.path loader.base l.text with
  | error error =>
      have hkey : l.key? loader.base = none := by
        rw [Lookup.key?, keyOf, hpath]
        rfl
      rw [due, hkey, Option.bind_none]
  | ok path =>
      have hnone : loader.cache.lookup (l.store.absolute path) = none := hnew path hpath
      rw [due, Lookup.key?_of_path hpath, Option.bind_some, ← h.held, hnone]

theorem Remembers.concat_held (h : Remembers base limit earlier loader)
    (hkey : l.key? base = some key) (hheld : loader.cache.lookup key = some content) :
    Remembers base limit (earlier ++ [l]) loader := by
  refine ⟨h.beneath, h.bound, fun other => ?_⟩
  rw [firstRead_concat, ← h.held]
  by_cases hsame : l.key? base = some other
  · obtain rfl := Option.some.inj (hkey.symm.trans hsame)
    rw [hheld, Option.some_or]
  · rw [Lookup.contentAt?_of_ne hsame, Option.or_none]

theorem Remembers.concat_read (h : Remembers base limit earlier loader)
    (hkey : l.key? base = some key) (hresult : l.result = .ok content) :
    Remembers base limit (earlier ++ [l])
      { loader with cache := loader.cache ++ [(key, content)] } := by
  refine ⟨h.beneath, h.bound, fun other => ?_⟩
  rw [firstRead_concat, ← h.held, List.lookup_append, List.lookup_cons]
  by_cases hsame : key = other
  · rw [Lookup.contentAt?_self (hkey.trans (congrArg some hsame)), hresult, hsame, BEq.rfl]
    rfl
  · rw [Lookup.contentAt?_of_ne fun h => hsame (Option.some.inj (hkey.symm.trans h)),
      beq_false_of_ne (Ne.symm hsame)]
    rfl

theorem Remembers.concat_refused {error : ReferenceError}
    (h : Remembers base limit earlier loader) (hresult : l.result = .error error) :
    Remembers base limit (earlier ++ [l]) loader := by
  refine ⟨h.beneath, h.bound, fun key => ?_⟩
  rw [firstRead_concat, Lookup.contentAt?_of_error hresult, Option.or_none, h.held]

end Remembering

theorem Remembers.load (h : Remembers base limit earlier before)
    (hload : outcome (load l.store l.text) before = (l.result, after)) :
    l.result = due base limit earlier l ∧ Remembers base limit (earlier ++ [l]) after := by
  obtain rfl := h.beneath
  obtain rfl := h.bound
  generalize hresult : l.result = result at hload
  cases loads_of_outcome hload with
  | held hpath hheld =>
      -- The path was read before, so what it is given now adds nothing to what it has.
      exact ⟨(h.due_of_held hpath hheld).symm, h.concat_held (Lookup.key?_of_path hpath) hheld⟩
  | read hpath hnew hresolve =>
      rw [h.due_of_new hnew]
      exact ⟨hresolve.symm, h.concat_read (Lookup.key?_of_path hpath) hresult⟩
  | refused hnew hresolve =>
      rw [h.due_of_new hnew]
      exact ⟨hresolve.symm, h.concat_refused hresult⟩

theorem allDue_nil (base : Option Path) (limit : Int) : AllDue base limit [] :=
  fun _ _ _ h => absurd h (by simp)

theorem allDue_concat_iff : AllDue base limit (lookups ++ [l]) ↔
    AllDue base limit lookups ∧ l.result = due base limit lookups l := by
  constructor
  · refine fun h => ⟨fun earlier l' later hsplit => ?_, h lookups l [] rfl⟩
    exact h earlier l' (later ++ [l]) (by rw [hsplit, List.append_assoc, List.cons_append])
  · rintro ⟨hall, hlast⟩ earlier l' later hsplit
    obtain rfl | ⟨later, last, rfl⟩ := later.eq_nil_or_concat
    · obtain ⟨rfl, hl⟩ := List.append_inj' hsplit rfl
      obtain rfl := List.singleton_inj.1 hl
      exact hlast
    · rw [List.concat_eq_append, ← List.cons_append, ← List.append_assoc] at hsplit
      exact hall earlier l' later (List.append_inj' hsplit rfl).1

theorem Performs.allDue (h : Performs before lookups after)
    (hbefore : Remembers base limit earlier before) (hearlier : AllDue base limit earlier) :
    Remembers base limit (earlier ++ lookups) after ∧ AllDue base limit (earlier ++ lookups) := by
  induction h generalizing earlier with
  | nil loader =>
      rw [List.append_nil]
      exact ⟨hbefore, hearlier⟩
  | cons first _ ih =>
      obtain ⟨hresult, hbetween⟩ := hbefore.load first
      rw [List.append_cons]
      exact ih hbetween (allDue_concat_iff.2 ⟨hearlier, hresult⟩)

theorem exists_key (h : l.result = due base limit earlier l) (hresult : l.result = .ok content) :
    ∃ key, l.key? base = some key := by
  cases hpath : Reference.path base l.text with
  | error error =>
      have hkey : l.key? base = none := by
        rw [Lookup.key?, keyOf, hpath]
        rfl
      rw [hresult, due, hkey, Reference.resolve, hpath] at h
      cases h
  | ok path =>
      exact ⟨l.store.absolute path, Lookup.key?_of_path hpath⟩

/-- Whatever is returned at a path is what was read there first. -/
theorem exists_firstRead (hdue : AllDue base limit lookups) (hl : l ∈ lookups)
    (hresult : l.result = .ok content) :
    ∃ key, l.key? base = some key ∧ firstRead base lookups key = some content := by
  obtain ⟨earlier, later, rfl⟩ := List.append_of_mem hl
  have h := hdue earlier l later rfl
  obtain ⟨key, hkey⟩ := exists_key h hresult
  refine ⟨key, hkey, ?_⟩
  rw [List.append_cons, firstRead, List.findSome?_append]
  refine Option.or_eq_some_iff.2 (.inl ?_)
  rw [← firstRead, firstRead_concat, Lookup.contentAt?_self hkey, hresult]
  rw [hresult, due, hkey, Option.bind_some] at h
  cases hfirst : firstRead base earlier key with
  | none => rfl
  | some first =>
      rw [hfirst] at h
      obtain rfl := Except.ok.inj h
      rfl

theorem size_le_of_resolve (hlimit : 1 ≤ limit)
    (h : Reference.resolve store base limit l.text = .ok content) : content.size ≤ limit := by
  cases hpath : Reference.path base l.text with
  | error error =>
      rw [Reference.resolve, hpath] at h
      cases h
  | ok path =>
      obtain ⟨-, -, -, -, -, hsmall⟩ := (resolve_eq_ok_iff hpath).1 h
      exact hsmall hlimit

theorem size_le_of_firstRead (hlimit : 1 ≤ limit) (hdue : AllDue base limit lookups)
    (h : firstRead base lookups key = some content) : content.size ≤ limit := by
  induction lookups using List.reverseRecOn with
  | nil => cases h
  | append_singleton lookups l ih =>
      obtain ⟨hdue, hlast⟩ := allDue_concat_iff.1 hdue
      rw [firstRead_concat] at h
      obtain hfirst | ⟨hnone, hcontent⟩ := Option.or_eq_some_iff.1 h
      · exact ih hdue hfirst
      · obtain ⟨hkey, hresult⟩ := Lookup.contentAt?_eq_some_iff.1 hcontent
        rw [hresult, due, hkey, Option.bind_some, hnone] at hlast
        exact size_le_of_resolve hlimit hlast.symm

theorem Performs.append {others : List Lookup} (h : Performs before lookups between)
    (hrest : Performs between others after) : Performs before (lookups ++ others) after := by
  induction h with
  | nil loader => exact hrest
  | cons first _ ih => exact .cons first (ih hrest)

def lookUpAll (store : FileStore) : Loader → List String → List Lookup
  | _, [] => []
  | loader, text :: rest =>
    match outcome (load store text) loader with
    | (.ok content, after) => ⟨store, text, .ok content⟩ :: lookUpAll store after rest
    | (.error error, _) => [⟨store, text, .error error⟩]

theorem performs_lookUpAll (store : FileStore) (loader : Loader) (texts : List String) :
    Performs loader (lookUpAll store loader texts) (outcome (loadAll store texts) loader).2 := by
  induction texts generalizing loader with
  | nil => exact .nil loader
  | cons text texts ih =>
      rw [lookUpAll, loadAll]
      rcases hload : outcome (load store text) loader with ⟨error | content, after⟩
      · rw [outcome_bind_of_error hload]
        exact .cons hload (.nil after)
      · rw [outcome_bind_of_ok hload]
        exact .cons hload (ih after)

theorem outcome_validateEntries (tree : Table) :
    (outcome (validateEntries store tree) before).2 =
      (outcome (loadAll store (Value.entryReferences tree)) before).2 := by
  rw [validateEntries_eq, outcome_bind]
  rcases outcome (loadAll store (Value.entryReferences tree)) before with ⟨error | _, after⟩
  · rfl
  · rfl

end Lookups

/-- What is asked of a loader, and what may happen to the files in the meantime: they become any
others, as by writing and deleting some of them. -/
inductive Move where
  | load (text : String)
  | validate (tree : Table)
  | change (store : FileStore)

structure Session where
  store : FileStore
  loader : Loader

namespace Session

def next (s : Session) : Move → Session
  | .load text => { s with loader := (outcome (Loader.load s.store text) s.loader).2 }
  | .validate tree => { s with loader := (outcome (validateEntries s.store tree) s.loader).2 }
  | .change store => { s with store }

def lookups (s : Session) : Move → List Lookup
  | .load text => [⟨s.store, text, (outcome (Loader.load s.store text) s.loader).1⟩]
  | .validate tree => lookUpAll s.store s.loader (Value.entryReferences tree)
  | .change _ => []

def after (s : Session) (moves : List Move) : Session :=
  moves.foldl next s

def trace (s : Session) : List Move → List Lookup
  | [] => []
  | m :: rest => s.lookups m ++ (s.next m).trace rest

theorem performs_lookups (s : Session) (m : Move) :
    Performs s.loader (s.lookups m) (s.next m).loader := by
  cases m with
  | load text => exact .cons rfl (.nil _)
  | validate tree =>
      rw [next, outcome_validateEntries]
      exact performs_lookUpAll s.store s.loader _
  | change store => exact .nil s.loader

theorem performs_trace (s : Session) (moves : List Move) :
    Performs s.loader (s.trace moves) (s.after moves).loader := by
  induction moves generalizing s with
  | nil => exact .nil s.loader
  | cons m moves ih => exact (s.performs_lookups m).append (ih (s.next m))

/-- What is returned at a path is what was first read there, and until something was read every load
of it looks at the files as they stand. -/
theorem one_snapshot (store : FileStore) (base : Option Path) (limit : Int) (moves : List Move) :
    let lookups := (Session.mk store (new base limit)).trace moves
    AllDue base limit lookups ∧
      (∀ l ∈ lookups, ∀ l' ∈ lookups, l.key? base = l'.key? base → ∀ content content',
        l.result = .ok content → l'.result = .ok content' → content = content') ∧
      (1 ≤ limit → ∀ l ∈ lookups, ∀ content, l.result = .ok content → content.size ≤ limit) ∧
      ∀ before text error after,
        outcome (Loader.load store text) before = (.error error, after) → after = before := by
  obtain ⟨-, hdue⟩ := (performs_trace ⟨store, new base limit⟩ moves).allDue
    (remembers_new base limit) (allDue_nil base limit)
  refine ⟨hdue, ?_, ?_, fun _ _ _ _ => eq_of_load_error⟩
  · intro l hl l' hl' hsame content content' hresult hresult'
    obtain ⟨key, hkey, hfirst⟩ := exists_firstRead hdue hl hresult
    obtain ⟨key', hkey', hfirst'⟩ := exists_firstRead hdue hl' hresult'
    rw [hkey, hkey'] at hsame
    obtain rfl := Option.some.inj hsame
    exact Option.some.inj (hfirst.symm.trans hfirst')
  · intro hlimit l hl content hresult
    obtain ⟨key, -, hfirst⟩ := exists_firstRead hdue hl hresult
    exact size_le_of_firstRead hlimit hdue hfirst

def storeWith (files : List (Location × StoredFile)) : FileStore :=
  ⟨files, [], [], 3⟩

def snapshot : ByteArray :=
  ⟨#[7]⟩

def smallFile : FileStore :=
  storeWith [(["a"], ⟨1, snapshot⟩)]

def grownFile : FileStore :=
  storeWith [(["a"], ⟨2, ⟨#[8, 8, 8, 8]⟩⟩)]

def rewritten : List Move :=
  [.load "file:a", .change smallFile, .validate [("x", .string "file:a")], .change grownFile,
    .load "file:gone/../a", .load "file:/a"]

def rewrittenLookups : List Lookup :=
  [⟨storeWith [], "file:a", .error (.notFound ⟨.none, ["a"]⟩)⟩,
    ⟨smallFile, "file:a", .ok snapshot⟩,
    ⟨grownFile, "file:gone/../a", .ok snapshot⟩,
    ⟨grownFile, "file:/a", .ok snapshot⟩]

theorem one_snapshot_rewritten :
    (Session.mk (storeWith []) (new none 3)).trace rewritten = rewrittenLookups ∧
      AllDue none 3 rewrittenLookups ∧
      (∀ l ∈ rewrittenLookups, l.key? none = some ⟨.slash, ["a"]⟩ →
        ∀ content, l.result = .ok content → content = snapshot) ∧
      (∀ l ∈ rewrittenLookups, ∀ content, l.result = .ok content → content.size ≤ 3) := by
  have htrace : (Session.mk (storeWith []) (new none 3)).trace rewritten = rewrittenLookups := rfl
  obtain ⟨hdue, hsame, hsize, -⟩ := one_snapshot (storeWith []) none 3 rewritten
  rw [htrace] at hdue hsame hsize
  refine ⟨htrace, hdue, fun l hl hkey content hresult => ?_, ?_⟩
  · exact hsame l hl ⟨smallFile, "file:a", .ok snapshot⟩
      (List.mem_cons_of_mem _ List.mem_cons_self) hkey content snapshot hresult rfl
  · exact fun l hl content hresult => Int.ofNat_le.1 (hsize (by decide) l hl content hresult)

end Session

end TypedConfig.Loader
