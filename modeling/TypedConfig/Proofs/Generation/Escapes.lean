import TypedConfig.Proofs.Emission.Refusals
import TypedConfig.Proofs.Generation.Output

namespace TypedConfig

namespace Action

variable {σ α β : Type} {x : ActionOn σ α} {f : α → ActionOn σ β} {s : SessionOn σ}
  {error : GenerationError}

def Escapes (x : ActionOn σ α) (s : SessionOn σ) (error : GenerationError) : Prop :=
  (outcome x s).1 = .error error ∧ error.isExpected = false

theorem not_escapes_of_ok {a : α} {t : SessionOn σ} (h : outcome x s = (.ok a, t)) :
    ¬ Escapes x s error := by
  rintro ⟨herror, -⟩
  rw [h] at herror
  cases herror

theorem escapes_bind : Escapes (x >>= f) s error ↔
    Escapes x s error ∨ ∃ a t, outcome x s = (.ok a, t) ∧ Escapes (f a) t error := by
  unfold Escapes
  rcases hx : outcome x s with ⟨e | a, t⟩
  · rw [outcome_bind_of_error hx]
    simp
  · rw [outcome_bind_of_ok hx]
    simp

theorem outcome_report (records : List Log.Record) :
    outcome (report records) s = (.ok (), { s with journal := s.journal ++ records }) :=
  outcome_modify _

/-- A step that always succeeds has no errors of its own. -/
theorem escapes_bind_of_ok {a : α} {t : SessionOn σ} (h : outcome x s = (.ok a, t)) :
    Escapes (x >>= f) s error ↔ Escapes (f a) t error := by
  rw [Escapes, outcome_bind_of_ok h, Escapes]

theorem escapes_fromExcept {ε : Type} {wrap : ε → GenerationError} {result : Except ε α} :
    Escapes (fromExcept wrap result) s error ↔
      ∃ cause, result = .error cause ∧ wrap cause = error ∧ error.isExpected = false := by
  rw [Escapes, fromExcept, outcome_ofExcept]
  cases result with
  | ok a => simp [Except.mapError]
  | error cause => simp [Except.mapError]

theorem outcome_fromExcept_eq_ok {ε : Type} {wrap : ε → GenerationError} {result : Except ε α}
    {a : α} {t : SessionOn σ} :
    outcome (fromExcept wrap result) s = (.ok a, t) ↔ result = .ok a ∧ s = t := by
  rw [fromExcept, outcome_ofExcept]
  cases result with
  | ok a => simp [Except.mapError]
  | error cause => simp [Except.mapError]

end Action

open TypedConfig.Action

theorem Input.decode_bytes (data : ByteArray) (source : String) :
    (Input.bytes data).decode source = match String.fromUTF8? data with
      | some document => (Toml.decode document).mapError (.ofDecode source)
      | none => .error (.parse source .notUtf8) := by
  rw [Input.decode]
  cases String.fromUTF8? data with
  | some document => rfl
  | none => rfl

theorem Input.decode_escapes_iff {σ : Type} {data : ByteArray} {source : String} {s : SessionOn σ}
    {error : GenerationError} :
    Escapes (Action.fromExcept id ((Input.bytes data).decode source)) s error ↔
      ∃ document cause, String.fromUTF8? data = some document ∧
        Toml.decode document = .error (.tooManyDigits cause) ∧ error = .number cause := by
  rw [escapes_fromExcept, decode_bytes]
  constructor
  · rintro ⟨_, h, rfl, hexpected⟩
    split at h
    · next document hdocument =>
      cases hdecode : Toml.decode document with
      | ok tree =>
          rw [hdecode] at h
          cases h
      | error cause =>
          rw [hdecode] at h
          cases h
          cases cause with
          | malformed => cases hexpected
          | tooManyDigits cause => exact ⟨document, cause, hdocument, hdecode, rfl⟩
    · cases h
      cases hexpected
  · rintro ⟨document, cause, hdocument, hdecode, rfl⟩
    rw [hdocument]
    simp only [hdecode]
    exact ⟨_, rfl, rfl, rfl⟩

theorem Input.decode_eq_ok_iff {data : ByteArray} {source : String} {tree : Table} :
    (Input.bytes data).decode source = .ok tree ↔
      ∃ document, String.fromUTF8? data = some document ∧ Toml.decode document = .ok tree := by
  rw [decode_bytes]
  cases String.fromUTF8? data with
  | none => simp
  | some document => cases hdecode : Toml.decode document <;> simp [hdecode, Except.mapError]

namespace Generator

variable {σ : Type} (g : Generator) (environment : Override.Environment)
  {tree : Table} {s : SessionOn σ} {error : GenerationError}

inductive Overridden (g : Generator) (environment : Override.Environment) (tree : Table) :
    Table → Prop
  | off (h : g.overrides = false) : Overridden g environment tree tree
  | applied {overridden : Table} {report : Override.Outcome} (h : g.overrides = true)
      (happly : (⟨g.variablePrefix, environment⟩ : Override.Source).apply [] tree =
        (overridden, report))
      (hreport : report.failure = none) : Overridden g environment tree overridden

theorem outcome_applyOverrides (tree : Table) (s : SessionOn σ) :
    (∃ overridden t, outcome (g.applyOverrides environment tree) s = (.ok overridden, t) ∧
      g.Overridden environment tree overridden) ∨
    ∃ e t, outcome (g.applyOverrides environment tree) s = (.error (.override e), t) ∧
      ∀ overridden, ¬ g.Overridden environment tree overridden := by
  unfold applyOverrides
  split
  · next hoff => exact .inl ⟨tree, s, rfl, .off (by simpa using hoff)⟩
  · next hon =>
    have hon : g.overrides = true := by simpa using hon
    rcases happly : (⟨g.variablePrefix, environment⟩ : Override.Source).apply [] tree with
      ⟨overridden, report⟩
    dsimp only
    rw [outcome_bind_of_ok (outcome_report _)]
    split
    · next e hfailure =>
      refine .inr ⟨e, _, rfl, fun other hother => ?_⟩
      cases hother with
      | off hoff =>
          rw [hon] at hoff
          cases hoff
      | applied _ hother hnone =>
          rw [happly] at hother
          cases hother
          rw [hfailure] at hnone
          cases hnone
    · next hfailure => exact .inl ⟨overridden, _, rfl, .applied hon happly hfailure⟩

variable [FileSystem σ]

theorem outcome_loadReferences (tree : Table) (s : SessionOn σ) :
    outcome (g.loadReferences tree) s =
      let loaded := outcome (Loader.loadAll s.store (Value.entryReferences tree))
        (.new g.inputDirectory g.limit)
      ((loaded.1.map fun _ => ((Value.entryReferences tree).length, loaded.2)).mapError .reference,
        { s with journal := s.journal ++ loaded.2.records }) := by
  have hvalidate : (Loader.validateEntries s.store tree).run (.new g.inputDirectory g.limit) =
      ((outcome (Loader.loadAll s.store (Value.entryReferences tree))
          (.new g.inputDirectory g.limit)).1.map fun _ => (Value.entryReferences tree).length,
        (outcome (Loader.loadAll s.store (Value.entryReferences tree))
          (.new g.inputDirectory g.limit)).2) := by
    rw [Loader.validateEntries_eq, bind_pure_comp]
    exact outcome_map _
  rw [loadReferences, outcome_bind_of_ok outcome_get]
  simp only [hvalidate]
  rw [outcome_bind_of_ok (outcome_report _), outcome_bind, Action.fromExcept, outcome_ofExcept]
  cases (outcome (Loader.loadAll s.store (Value.entryReferences tree))
    (.new g.inputDirectory g.limit)).1 with
  | ok u => rfl
  | error e => rfl

theorem loadReferences_eq_ok_iff {loaded : Nat × Loader} {t : SessionOn σ} :
    outcome (g.loadReferences tree) s = (.ok loaded, t) ↔
      outcome (Loader.loadAll s.store (Value.entryReferences tree))
          (.new g.inputDirectory g.limit) = (.ok (), loaded.2) ∧
        loaded.1 = (Value.entryReferences tree).length ∧
        t = { s with journal := s.journal ++ loaded.2.records } := by
  rw [outcome_loadReferences]
  obtain ⟨count, loader⟩ := loaded
  rcases outcome (Loader.loadAll s.store (Value.entryReferences tree))
    (.new g.inputDirectory g.limit) with ⟨e | ⟨⟩, last⟩
  · simp [Except.map, Except.mapError]
  · simp only [Except.map, Except.mapError, Prod.mk.injEq, Except.ok.injEq, true_and]
    constructor
    · rintro ⟨⟨rfl, rfl⟩, rfl⟩
      exact ⟨rfl, rfl, rfl⟩
    · rintro ⟨rfl, rfl, rfl⟩
      exact ⟨⟨rfl, rfl⟩, rfl⟩

def emitLoaded (g : Generator) (tree : Table) (loaded : Nat × Loader) :
    ActionOn σ String := do
  let catalog := Catalog.collect tree
  Action.report [⟨.debug, "Collected " ++ toString catalog.size ++ " type(s), " ++
    toString loaded.1 ++ " file reference(s), mode=" ++ g.mode.name⟩]
  let store := (← get).store
  let emitter : Emitter := ⟨g.mode, g.package, g.variablePrefix⟩
  let file ← Action.fromExcept .ofBuild
    ((emitter.emit store tree catalog).run ⟨loaded.2, []⟩).1
  return file.text

theorem generateTree_eq (tree : Table) : (g.generateTree environment tree : ActionOn σ String) =
    g.applyOverrides environment tree >>= fun tree =>
      g.loadReferences tree >>= g.emitLoaded tree :=
  rfl

theorem emitLoaded_escapes_iff {store : σ} {journal : List Log.Record}
    {loaded : Nat × Loader}
    (hheld : ∀ reference ∈ Value.entryReferences tree, loaded.2.Holds store reference) :
    Escapes (g.emitLoaded tree loaded) ⟨store, journal⟩ error ↔ error = .number .writing ∧
      ∃ n ∈ Emitter.writtenIntegers g.mode tree (Catalog.collect tree),
        ¬ Decimal.IsWritable n := by
  obtain ⟨-, hwrites⟩ := Emitter.writes_emit hheld ⟨g.mode, g.package, g.variablePrefix⟩
    ⟨loaded.2, []⟩ rfl
  rw [emitLoaded, escapes_bind_of_ok (outcome_report _), escapes_bind_of_ok outcome_get,
    escapes_bind, escapes_fromExcept, or_iff_left]
  · obtain ⟨⟨file, hfile⟩, hwritable⟩ | ⟨hrefused, n, hn, hlong⟩ := hwrites
    · refine iff_of_false ?_ ?_
      · rintro ⟨cause, hcause, -⟩
        cases hfile.symm.trans hcause
      · rintro ⟨-, n, hn, hlong⟩
        exact hlong (hwritable n hn)
    · constructor
      · rintro ⟨cause, hcause, rfl, -⟩
        cases hrefused.symm.trans hcause
        exact ⟨rfl, n, hn, hlong⟩
      · rintro ⟨rfl, -⟩
        exact ⟨_, hrefused, rfl, rfl⟩
  · rintro ⟨file, t, -, h⟩
    exact not_escapes_of_ok (outcome_pure _) h

variable {g environment} in
theorem Overridden.unique {tree one other : Table} (h : g.Overridden environment tree one)
    (h' : g.Overridden environment tree other) : one = other := by
  cases h with
  | off hoff =>
      cases h' with
      | off => rfl
      | applied hon =>
          rw [hoff] at hon
          cases hon
  | applied hon happly =>
      cases h' with
      | off hoff =>
          rw [hoff] at hon
          cases hon
      | applied _ happly' =>
          rw [happly] at happly'
          exact congrArg Prod.fst happly'

section

variable {s : Session}

theorem loadReferences_escapes_iff :
    Escapes (g.loadReferences tree) s error ↔ error = .reference .nullByte ∧
      Loader.MeetsNull s.store (.new g.inputDirectory g.limit) (Value.entryReferences tree) := by
  have hreferences (text : String) (h : text ∈ Value.entryReferences tree) :=
    Value.isReference_of_mem_entries tree h
  have hne (text : String) :
      (outcome (Loader.loadAll s.store (Value.entryReferences tree))
        (.new g.inputDirectory g.limit)).1 ≠ .error (.notReference text) :=
    Loader.loadAll_ne_notReference hreferences text
  rw [Escapes, outcome_loadReferences, ← Loader.loadAll_eq_nullByte_iff hreferences]
  dsimp only
  cases hload : (outcome (Loader.loadAll s.store (Value.entryReferences tree))
      (.new g.inputDirectory g.limit)).1 with
  | ok u => simp [Except.map, Except.mapError]
  | error e =>
      rw [hload] at hne
      simp only [Except.map, Except.mapError, Except.error.injEq]
      constructor
      · rintro ⟨rfl, hexpected⟩
        cases e with
        | nullByte => exact ⟨rfl, rfl⟩
        | notReference text => exact absurd rfl (hne text)
        | _ => cases hexpected
      · rintro ⟨rfl, rfl⟩
        exact ⟨rfl, rfl⟩

/-- What ends the emission of an overridden configuration unforeseen: a reference that leads to a
null character, or an integer that is too long to write. -/
inductive Unforeseen (g : Generator) (store : FileStore) (tree : Table) : GenerationError → Prop
  | reference
      (h : Loader.MeetsNull store (.new g.inputDirectory g.limit) (Value.entryReferences tree)) :
      Unforeseen g store tree (.reference .nullByte)
  | integer {loader : Loader} {n : Int}
      (hload : outcome (Loader.loadAll store (Value.entryReferences tree))
        (.new g.inputDirectory g.limit) = (.ok (), loader))
      (hn : n ∈ Emitter.writtenIntegers g.mode tree (Catalog.collect tree))
      (hlong : ¬ Decimal.IsWritable n) : Unforeseen g store tree (.number .writing)

/-- The references come first: as long as one of them fails, nothing is written. -/
theorem loaded_escapes_iff :
    Escapes (g.loadReferences tree >>= g.emitLoaded tree) s error ↔
      g.Unforeseen s.store tree error := by
  rw [escapes_bind, loadReferences_escapes_iff]
  constructor
  · rintro (⟨rfl, hmeets⟩ | ⟨⟨count, loader⟩, t, hloaded, hescapes⟩)
    · exact .reference hmeets
    · obtain ⟨hload, -, rfl⟩ := g.loadReferences_eq_ok_iff.1 hloaded
      have hheld := (Loader.extends_of_loadAll hload).2
      obtain ⟨rfl, n, hn, hlong⟩ := (g.emitLoaded_escapes_iff hheld).1 hescapes
      exact .integer hload hn hlong
  · rintro (hmeets | ⟨hload, hn, hlong⟩)
    · exact .inl ⟨rfl, hmeets⟩
    · have hheld := (Loader.extends_of_loadAll hload).2
      exact .inr ⟨(_, _), _, g.loadReferences_eq_ok_iff.2 ⟨hload, rfl, rfl⟩,
        (g.emitLoaded_escapes_iff hheld).2 ⟨rfl, _, hn, hlong⟩⟩

theorem generateTree_escapes_iff :
    Escapes (g.generateTree environment tree) s error ↔
      ∃ overridden, g.Overridden environment tree overridden ∧
        g.Unforeseen s.store overridden error := by
  rw [generateTree_eq, escapes_bind]
  obtain ⟨overridden, between, happly, hoverridden⟩ | ⟨e, between, happly, hnone⟩ :=
    g.outcome_applyOverrides environment tree s
  · rw [or_iff_right (not_escapes_of_ok happly),
      ← (g.keeps_applyOverrides environment tree).eq_of_outcome happly]
    constructor
    · rintro ⟨other, t, hother, hescapes⟩
      rw [happly] at hother
      cases hother
      exact ⟨overridden, hoverridden, g.loaded_escapes_iff.1 hescapes⟩
    · rintro ⟨other, hother, hunforeseen⟩
      cases hother.unique hoverridden
      exact ⟨overridden, between, happly, g.loaded_escapes_iff.2 hunforeseen⟩
  · refine iff_of_false ?_ fun ⟨other, hother, _⟩ => hnone other hother
    rintro (⟨herror, hexpected⟩ | ⟨other, t, hother, -⟩)
    · rw [happly] at herror
      cases herror
      cases hexpected
    · rw [happly] at hother
      cases hother

theorem generate_escapes_iff {data : ByteArray} {source : String} :
    Escapes (g.generate environment (.bytes data) source) s error ↔
      ∃ document, String.fromUTF8? data = some document ∧
        ((∃ cause, Toml.decode document = .error (.tooManyDigits cause) ∧ error = .number cause) ∨
        ∃ tree overridden, Toml.decode document = .ok tree ∧
          g.Overridden environment tree overridden ∧ g.Unforeseen s.store overridden error) := by
  rw [generate, escapes_bind, Input.decode_escapes_iff]
  simp only [outcome_fromExcept_eq_ok, Input.decode_eq_ok_iff, generateTree_escapes_iff]
  constructor
  · rintro (⟨document, cause, hdocument, hdecode, rfl⟩ |
      ⟨tree, _, ⟨⟨document, hdocument, htree⟩, rfl⟩, overridden, h⟩)
    · exact ⟨document, hdocument, .inl ⟨cause, hdecode, rfl⟩⟩
    · exact ⟨document, hdocument, .inr ⟨tree, overridden, htree, h⟩⟩
  · rintro ⟨document, hdocument, ⟨cause, hdecode, rfl⟩ | ⟨tree, overridden, htree, h⟩⟩
    · exact .inl ⟨document, cause, hdocument, hdecode, rfl⟩
    · exact .inr ⟨tree, s, ⟨⟨document, hdocument, htree⟩, rfl⟩, overridden, h⟩

end

end Generator

namespace GenerateOptions

variable (o : GenerateOptions) (host : Host) {session : Session} {error : GenerationError}

theorem readInput_escapes_iff :
    Escapes o.readInput session error ↔ o.inputFile.HasNull ∧ error = .nullByte := by
  have hnull : session.store.content o.inputFile = .error .nullByte ↔ o.inputFile.HasNull :=
    FileStore.content_eq_nullByte_iff
  rw [← hnull, readInput, escapes_bind_of_ok outcome_get]
  cases hcontent : session.store.content o.inputFile with
  | ok data => exact iff_of_false (not_escapes_of_ok (outcome_pure _)) (by simp)
  | error fault =>
      constructor
      · rintro ⟨herror, hexpected⟩
        cases fault with
        | nullByte =>
            cases herror
            exact ⟨rfl, rfl⟩
        | _ =>
            cases herror
            cases hexpected
      · rintro ⟨hfault, rfl⟩
        cases hfault
        exact ⟨rfl, rfl⟩

theorem formatSource_not_escapes (formatter : Option Formatter) (timeout : Int) (text : String) :
    ¬ Escapes (formatSource formatter timeout text) session error := by
  unfold formatSource
  split
  · rw [escapes_bind_of_ok (outcome_report _)]
    exact not_escapes_of_ok (outcome_pure _)
  · rw [escapes_fromExcept]
    rintro ⟨cause, -, rfl, hexpected⟩
    cases hexpected

theorem writeOutput_escapes_iff {text : String} :
    Escapes (o.writeOutput text) session error ↔ error = .nullByte ∧
      (o.outputFile.parent.HasNull ∨ ∃ made,
        outcome (FileStore.makeDirectories o.outputFile.parent) session.store = (.ok (), made) ∧
          made.NullBeside o.outputFile) := by
  rw [← FileStore.writeAtomic_refuses_null_iff session.store o.outputFile text.toUTF8, Escapes,
    outcome_writeOutput]
  dsimp only
  cases (outcome (FileStore.writeAtomic o.outputFile text.toUTF8) session.store).1 with
  | ok written => simp [Except.mapError]
  | error e =>
      simp only [Except.mapError, Except.error.injEq]
      constructor
      · rintro ⟨rfl, hexpected⟩
        split at hexpected
        · next hfault =>
          rw [if_pos hfault]
          exact ⟨rfl, e, rfl, hfault⟩
        · cases hexpected
      · rintro ⟨rfl, _, rfl, hfault⟩
        rw [if_pos hfault]
        exact ⟨rfl, rfl⟩

inductive Unforeseen (o : GenerateOptions) (host : Host) (session : Session) :
    GenerationError → Prop
  | input (h : o.inputFile.HasNull) : Unforeseen o host session .nullByte
  | document {data : ByteArray} {document : String} {cause : Decimal.LimitError}
      (hcontent : session.store.content o.inputFile = .ok data)
      (hdocument : String.fromUTF8? data = some document)
      (h : Toml.decode document = .error (.tooManyDigits cause)) :
      Unforeseen o host session (.number cause)
  | configuration {data : ByteArray} {document : String} {tree overridden : Table}
      {error : GenerationError} (hcontent : session.store.content o.inputFile = .ok data)
      (hdocument : String.fromUTF8? data = some document) (htree : Toml.decode document = .ok tree)
      (hoverridden : o.generator.Overridden host.environment tree overridden)
      (h : o.generator.Unforeseen session.store overridden error) :
      Unforeseen o host session error
  | output {text : String} {between : Session}
      (htext : outcome (o.source host) session = (.ok text, between))
      (h : o.outputFile.parent.HasNull ∨ ∃ made,
        outcome (FileStore.makeDirectories o.outputFile.parent) session.store = (.ok (), made) ∧
          made.NullBeside o.outputFile) :
      Unforeseen o host session .nullByte

theorem source_escapes_iff :
    Escapes (o.source host) session error ↔ Escapes o.readInput session error ∨
      ∃ data, session.store.content o.inputFile = .ok data ∧
        Escapes (o.generator.generate host.environment (.bytes data) o.inputFile.text) session
          error := by
  have hformat (generated : String) (t : Session) : ¬ Escapes
      (if o.formatsSource then formatSource host.formatter Formatter.defaultTimeout generated
        else pure generated) t error := by
    split
    · exact formatSource_not_escapes _ _ _
    · exact not_escapes_of_ok (outcome_pure _)
  rw [source, escapes_bind]
  refine or_congr_right ⟨?_, ?_⟩
  · rintro ⟨data, t, hread, h⟩
    obtain ⟨rfl, hcontent⟩ := o.outcome_readInput hread
    obtain h | ⟨generated, t, -, h⟩ := escapes_bind.1 h
    · exact ⟨data, hcontent, h⟩
    · exact absurd h (hformat generated t)
  · rintro ⟨data, hcontent, h⟩
    refine ⟨data, session, ?_, escapes_bind.2 (.inl h)⟩
    rw [readInput, outcome_bind_of_ok outcome_get, hcontent]
    rfl

/-- A run fails with an error that it is not prepared for exactly if the input path or a reference
leads to a null character, an integer of the document is too long to be read or to be written, or
the source is to be written where the path has a null character. This is as far as a store and a
formatter go: a formatter that cannot be started or prints what is no text, and a document nested
too deep for the stack, are no part of either. -/
theorem run_escapes_iff :
    Escapes (o.run host) session error ↔ o.Unforeseen host session error := by
  rw [run_eq, escapes_bind, source_escapes_iff, readInput_escapes_iff]
  simp only [Generator.generate_escapes_iff]
  constructor
  · rintro ((⟨hnull, rfl⟩ | ⟨data, hcontent, document, hdocument, h⟩) | ⟨text, between, htext, h⟩)
    · exact .input hnull
    · obtain ⟨cause, hdecode, rfl⟩ | ⟨tree, overridden, htree, hoverridden, h⟩ := h
      · exact .document hcontent hdocument hdecode
      · exact .configuration hcontent hdocument htree hoverridden h
    · obtain hwrite | ⟨written, t, -, hend⟩ := escapes_bind.1 h
      · rw [writeOutput_escapes_iff, (o.keeps_source host).eq_of_outcome htext] at hwrite
        obtain ⟨rfl, hnull⟩ := hwrite
        exact .output htext hnull
      · rw [escapes_bind_of_ok (outcome_report _)] at hend
        exact absurd hend (not_escapes_of_ok (outcome_pure _))
  · rintro (hnull | ⟨hcontent, hdocument, hdecode⟩ |
      ⟨hcontent, hdocument, htree, hoverridden, h⟩ | ⟨htext, h⟩)
    · exact .inl (.inl ⟨hnull, rfl⟩)
    · exact .inl (.inr ⟨_, hcontent, _, hdocument, .inl ⟨_, hdecode, rfl⟩⟩)
    · exact .inl (.inr ⟨_, hcontent, _, hdocument, .inr ⟨_, _, htree, hoverridden, h⟩⟩)
    · rw [← (o.keeps_source host).eq_of_outcome htext] at h
      exact .inr ⟨_, _, htext, escapes_bind.2 (.inl (o.writeOutput_escapes_iff.2 ⟨rfl, h⟩))⟩

def nullReference : Session :=
  ⟨⟨[(["config.toml"], ⟨1, "x = \"file:\\u0000\"".toUTF8⟩)], [], [], 2⟩, []⟩

/-- Not every failure is one that a run is prepared for. -/
theorem not_all_errors_expected : ¬ ∀ (o : GenerateOptions) (host : Host) (session : Session)
    (error : GenerationError),
    (outcome (o.run host) session).1 = .error error → error.isExpected := by
  intro h
  have hrun : (outcome (formattedOptions.run ⟨[], none⟩) nullReference).1 =
      .error (.reference .nullByte) := by
    decide +kernel
  cases h _ _ _ _ hrun

end GenerateOptions

end TypedConfig
