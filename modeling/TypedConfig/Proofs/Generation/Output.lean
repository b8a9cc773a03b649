import TypedConfig.Generation.Pipeline
import TypedConfig.Proofs.Files.Writing

namespace TypedConfig

namespace Action

variable {σ : Type}

theorem keeps_report (records : List Log.Record) :
    Keeps SessionOn.store (report records : ActionOn σ Unit) :=
  fun _ => rfl

theorem keeps_fromExcept {ε α : Type} (wrap : ε → GenerationError) (e : Except ε α) :
    Keeps SessionOn.store (fromExcept wrap e : ActionOn σ α) :=
  keeps_ofExcept _

end Action

open TypedConfig.Action

namespace Generator

variable {σ : Type} (g : Generator) (environment : Override.Environment)

theorem keeps_applyOverrides (tree : Table) :
    Keeps SessionOn.store (g.applyOverrides environment tree : ActionOn σ Table) := by
  unfold applyOverrides
  split
  · exact keeps_pure _
  · refine (keeps_report _).bind fun _ => ?_
    split
    · exact keeps_throw _
    · exact keeps_pure _

variable [FileSystem σ]

theorem keeps_loadReferences (tree : Table) :
    Keeps SessionOn.store (g.loadReferences tree : ActionOn σ (Nat × Loader)) :=
  keeps_get.bind fun _ => (keeps_report _).bind fun _ => (keeps_fromExcept _ _).bind fun _ =>
    keeps_pure _

theorem keeps_generateTree (tree : Table) :
    Keeps SessionOn.store (g.generateTree environment tree : ActionOn σ String) :=
  (g.keeps_applyOverrides environment tree).bind fun tree =>
    (g.keeps_loadReferences tree).bind fun _ => (keeps_report _).bind fun _ =>
      keeps_get.bind fun _ => (keeps_fromExcept _ _).bind fun _ => keeps_pure _

theorem keeps_generate (input : Input) (source : String) :
    Keeps SessionOn.store (g.generate environment input source : ActionOn σ String) :=
  (keeps_fromExcept _ _).bind fun tree => g.keeps_generateTree environment tree

end Generator

theorem Formatter.eq_of_run_eq_ok (formatter : Formatter) {timeout : Int} {text : String}
    (h : formatter.run timeout = .ok text) :
    ∃ output report, formatter = .ends 0 output report ∧ text = Text.readLines output := by
  unfold run at h
  split at h
  · cases h
  · split at h
    · cases h
    · next output report =>
      cases h
      exact ⟨output, report, rfl, rfl⟩
    · cases h

theorem keeps_formatSource (formatter : Option Formatter) (timeout : Int) (source : String) :
    Keeps SessionOn.store (formatSource formatter timeout source) := by
  unfold formatSource
  split
  · exact (keeps_report _).bind fun _ => keeps_pure _
  · exact keeps_fromExcept _ _

namespace GenerateOptions

variable (o : GenerateOptions) (host : Host)

theorem keeps_readInput : Keeps SessionOn.store o.readInput := by
  refine keeps_get.bind fun session => ?_
  split
  · exact keeps_pure _
  · exact keeps_throw _
  · exact keeps_throw _
  · exact keeps_throw _

def source : Action String := do
  let data ← o.readInput
  let generated ← o.generator.generate host.environment (.bytes data) o.inputFile.text
  if o.formatsSource then formatSource host.formatter Formatter.defaultTimeout generated
  else pure generated

theorem run_eq : o.run host = do
    let source ← o.source host
    let written ← o.writeOutput source
    Action.report [⟨.info, "Generated " ++ written.text ++ " from " ++ o.inputFile.text ++ " (" ++
      o.mode.name ++ " mode)"⟩]
    return written := by
  simp only [run, source, bind_assoc]
  refine bind_congr fun data => bind_congr fun generated => ?_
  split
  · rfl
  · rfl

theorem keeps_source : Keeps SessionOn.store (o.source host) := by
  refine o.keeps_readInput.bind fun data => (o.generator.keeps_generate _ _ _).bind fun text => ?_
  split
  · exact keeps_formatSource _ _ _
  · exact keeps_pure _

/-- What becomes of a generated text on its way to the output. The formatter's text counts if it
ends well, and every line end in it is a line feed. -/
inductive Formatted (host : Host) (generated : String) : Bool → String → Prop
  | off : Formatted host generated false generated
  | absent (h : host.formatter = none) : Formatted host generated true generated
  | printed {output report : String} (h : host.formatter = some (.ends 0 output report)) :
      Formatted host generated true (Text.readLines output)

/-- The text that a run has to write: what is generated from the input file, formatted. -/
def Prints (session : Session) (text : String) : Prop :=
  ∃ data generated after, session.store.content o.inputFile = .ok data ∧
    outcome (o.generator.generate host.environment (.bytes data) o.inputFile.text) session =
      (.ok generated, after) ∧
    Formatted host generated o.formatsSource text

theorem outcome_readInput {session after : Session} {data : ByteArray}
    (h : outcome o.readInput session = (.ok data, after)) :
    after = session ∧ session.store.content o.inputFile = .ok data := by
  rw [readInput, outcome_bind_of_ok outcome_get] at h
  split at h
  · next data' hcontent =>
    obtain ⟨⟨⟩, rfl⟩ := Prod.mk.inj h
    exact ⟨rfl, hcontent⟩
  all_goals cases h

theorem formatted_of_formatSource {generated text : String} {session after : Session}
    (h : outcome (formatSource host.formatter Formatter.defaultTimeout generated) session =
      (.ok text, after)) : Formatted host generated true text := by
  unfold formatSource at h
  split at h
  · next hnone =>
    obtain ⟨⟨⟩, -⟩ := Prod.mk.inj h
    exact .absent hnone
  · next formatter hsome =>
    rw [Action.fromExcept, outcome_ofExcept] at h
    cases hrun : formatter.run Formatter.defaultTimeout with
    | error error =>
        rw [hrun] at h
        cases h
    | ok printed =>
        rw [hrun] at h
        cases h
        obtain ⟨output, report, rfl, rfl⟩ := formatter.eq_of_run_eq_ok hrun
        exact .printed hsome

theorem prints_of_source {session after : Session} {text : String}
    (h : outcome (o.source host) session = (.ok text, after)) : o.Prints host session text := by
  rw [source] at h
  obtain ⟨data, _, hread, hrest⟩ := outcome_bind_eq_ok.1 h
  obtain ⟨rfl, hcontent⟩ := o.outcome_readInput hread
  obtain ⟨generated, between, hgenerate, hformat⟩ := outcome_bind_eq_ok.1 hrest
  refine ⟨data, generated, between, hcontent, hgenerate, ?_⟩
  split at hformat
  · next hformats =>
    rw [hformats]
    exact formatted_of_formatSource host hformat
  · next hformats =>
    obtain ⟨⟨⟩, -⟩ := Prod.mk.inj hformat
    rw [Bool.not_eq_true] at hformats
    rw [hformats]
    exact .off

theorem outcome_writeOutput (session : Session) (text : String) :
    outcome (o.writeOutput text) session =
      let written := outcome (FileStore.writeAtomic o.outputFile text.toUTF8) session.store
      (written.1.mapError fun e => if e.fault = .nullByte then .nullByte
        else .unwritable o.outputFile e, { session with store := written.2 }) := by
  rw [writeOutput, outcome_bind_of_ok outcome_get]
  exact (outcome_bind_of_ok (outcome_set _)).trans (outcome_ofExcept _)

/-- What is in the place of the output after a run that has put a text there. -/
structure Replaced (text : String) (before after : FileStore) : Prop where
  content : after.content o.outputFile = .ok text.toUTF8
  others : ∃ location, after.locate o.outputFile = .ok location ∧
    ∀ other ≠ location, after.files.lookup other = before.files.lookup other
  directories : ∃ grown, FileStore.Grown o.outputFile.parent before grown ∧
    after.directories = grown.directories

theorem outcome_write (session : Session) (text : String) :
    (∃ error after, outcome (o.writeOutput text) session = (.error error, after) ∧
      FileStore.Grown o.outputFile.parent session.store after.store) ∨
    ∃ after, outcome (o.writeOutput text) session = (.ok o.outputFile, after) ∧
      o.Replaced text session.store after.store := by
  obtain ⟨grown, hgrown, ⟨error, hwrite⟩ | ⟨location, hwrite, hlocate, hnode⟩⟩ :=
    FileStore.outcome_writeAtomic session.store o.outputFile text.toUTF8
  · rw [outcome_writeOutput, hwrite]
    exact .inl ⟨_, _, rfl, hgrown⟩
  · rw [outcome_writeOutput, hwrite]
    refine .inr ⟨_, rfl, FileStore.content_put hlocate hnode, ⟨location, ?_, fun other hne => ?_⟩,
      grown, hgrown, rfl⟩
    · exact (FileStore.KeepsDirectories.put hnode).locate hlocate
    · rw [← hgrown.files]
      exact FileStore.lookup_put_of_ne hne

/-- A run either fails or returns the path of its output. If it fails, every file is as it was; if
it returns, the output holds the text that the run had to write, and all other files are as they
were. Either way the only new directories are above the output. -/
theorem run_all_or_nothing (session : Session) :
    (∃ error after, outcome (o.run host) session = (.error error, after) ∧
      FileStore.Grown o.outputFile.parent session.store after.store) ∨
    ∃ text after, outcome (o.run host) session = (.ok o.outputFile, after) ∧
      o.Prints host session text ∧ o.Replaced text session.store after.store := by
  rw [run_eq]
  rcases hsource : outcome (o.source host) session with ⟨error | text, between⟩
  · refine .inl ⟨error, between, outcome_bind_of_error hsource, ?_⟩
    rw [(o.keeps_source host).eq_of_outcome hsource]
    exact .refl _ _
  · have hwrite := o.outcome_write between text
    rw [(o.keeps_source host).eq_of_outcome hsource] at hwrite
    rw [outcome_bind_of_ok hsource]
    obtain ⟨error, after, hwrite, hgrown⟩ | ⟨after, hwrite, hreplaced⟩ := hwrite
    · exact .inl ⟨error, after, outcome_bind_of_error hwrite, hgrown⟩
    · rw [outcome_bind_of_ok hwrite]
      exact .inr ⟨text, _, rfl, o.prints_of_source host hsource, hreplaced⟩

def twoCharacterLines : Host :=
  ⟨[], some (.ends 0 "package config\r\n" "")⟩

def formattedOptions : GenerateOptions :=
  ⟨⟨.none, ["config.toml"]⟩, ⟨.none, ["config.go"]⟩, "", true, Loader.defaultLimit, .static, true⟩

def emptyConfiguration : Session :=
  ⟨⟨[(["config.toml"], ⟨1, ByteArray.empty⟩)], [], [], 2⟩, []⟩

/-- The output does not always hold what the formatter printed. -/
theorem not_all_printed_kept : ¬ ∀ (o : GenerateOptions) (host : Host) (session after : Session)
    (written : Path) (output report : String),
    outcome (o.run host) session = (.ok written, after) → o.formatsSource →
      host.formatter = some (.ends 0 output report) →
        after.store.content written = .ok output.toUTF8 := by
  intro h
  have hrun : (outcome (formattedOptions.run twoCharacterLines) emptyConfiguration).1 =
      .ok formattedOptions.outputFile := by
    decide +kernel
  have hkept := h formattedOptions twoCharacterLines emptyConfiguration _ _ _ _
    (Prod.ext hrun rfl) rfl rfl
  exact absurd hkept (by decide +kernel)

end GenerateOptions

end TypedConfig
