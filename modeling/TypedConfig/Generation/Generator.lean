import TypedConfig.Emission.Emitter
import TypedConfig.Generation.Error
import TypedConfig.Toml.Document
import TypedConfig.Log

namespace TypedConfig

structure SessionOn (σ : Type) where
  store : σ
  journal : List Log.Record

abbrev Session := SessionOn FileStore

/-- A step of a run over files of some kind, which may fail; what it did before it failed stays
done. -/
abbrev ActionOn (σ : Type) := ExceptT GenerationError (StateM (SessionOn σ))

abbrev Action := ActionOn FileStore

namespace Action

variable {σ : Type}

def report (records : List Log.Record) : ActionOn σ Unit :=
  modify fun s => { s with journal := s.journal ++ records }

def fromExcept {ε α : Type} (wrap : ε → GenerationError) (e : Except ε α) : ActionOn σ α :=
  MonadExcept.ofExcept (e.mapError wrap)

end Action

inductive Input where
  | text (content : String)
  | bytes (content : ByteArray)

def Input.decode (input : Input) (source : String) : Except GenerationError Table := do
  let text ←
    match input with
    | .text s => pure s
    | .bytes data =>
      match String.fromUTF8? data with
      | some s => pure s
      | none => throw (.parse source .notUtf8)
  (Toml.decode text).mapError (.ofDecode source)

structure Generator where
  package : String
  mode : Mode
  overrides : Bool
  inputDirectory : Option Path
  limit : Int
  variablePrefix : String

namespace Generator

def ofSettings (package mode : String) (overrides : Bool) (inputDirectory : Option Path)
    (limit : Int) (variablePrefix : String) : Except GenerationError Generator :=
  match Mode.ofName? mode with
  | none => .error (.invalidMode mode)
  | some mode => .ok {
      package := if package.isEmpty then "config" else package
      mode
      overrides
      inputDirectory
      limit := if limit = 0 then Loader.defaultLimit else limit
      variablePrefix }

end Generator

namespace Override.Outcome

def records (outcome : Outcome) : List Log.Record :=
  (outcome.ignored.map fun name =>
    ⟨.warning, "Ignoring " ++ name ++ ": empty arrays cannot be overridden"⟩) ++
  if outcome.failure.isNone && !outcome.applied.isEmpty then
    [⟨.info, "Applied " ++ toString outcome.applied.length ++ " environment override(s): " ++
      ", ".intercalate outcome.applied⟩]
  else []

end Override.Outcome

namespace Loader

def records (loader : Loader) : List Log.Record :=
  loader.cache.map fun (path, content) =>
    ⟨.debug, "Loaded " ++ path.text ++ " (" ++ toString content.size ++ " bytes)"⟩

end Loader

namespace Generator

variable {σ : Type}

def applyOverrides (g : Generator) (environment : Override.Environment) (tree : Table) :
    ActionOn σ Table := do
  if !g.overrides then return tree
  let (tree, outcome) := (⟨g.variablePrefix, environment⟩ : Override.Source).apply [] tree
  Action.report outcome.records
  match outcome.failure with
  | some error => throw (.override error)
  | none => return tree

variable [FileSystem σ]

def loadReferences (g : Generator) (tree : Table) : ActionOn σ (Nat × Loader) := do
  let store := (← get).store
  let (count, loader) :=
    (Loader.validateEntries store tree).run (.new g.inputDirectory g.limit)
  Action.report loader.records
  let count ← Action.fromExcept .reference count
  return (count, loader)

def generateTree (g : Generator) (environment : Override.Environment) (tree : Table) :
    ActionOn σ String := do
  let tree ← g.applyOverrides environment tree
  let (references, loader) ← g.loadReferences tree
  let catalog := Catalog.collect tree
  Action.report [⟨.debug, "Collected " ++ toString catalog.size ++ " type(s), " ++
    toString references ++ " file reference(s), mode=" ++ g.mode.name⟩]
  let store := (← get).store
  let emitter : Emitter := ⟨g.mode, g.package, g.variablePrefix⟩
  let file ← Action.fromExcept .ofBuild ((emitter.emit store tree catalog).run ⟨loader, []⟩).1
  return file.text

def generate (g : Generator) (environment : Override.Environment) (input : Input)
    (source : String) : ActionOn σ String := do
  let tree ← Action.fromExcept id (input.decode source)
  g.generateTree environment tree

end Generator
end TypedConfig
