import TypedConfig.CommandLine.Run

open TypedConfig CommandLine

def processEnvironment : IO Override.Environment := do
  let content ← try IO.FS.readBinFile "/proc/self/environ" catch _ => pure ByteArray.empty
  let text := (String.fromUTF8? content).getD ""
  return (text.splitOn "\x00").filterMap fun entry =>
    match entry.splitOn "=" with
    | name :: value :: more => some (name, "=".intercalate (value :: more))
    | _ => none

def readNode (path : String) : IO (Option (Option ByteArray)) := do
  try
    return some (some (← IO.FS.readBinFile path))
  catch
    | .noFileOrDirectory .. => return none
    | .permissionDenied .. => return none
    | _ => return some none

def loadLocation (store : FileStore) (location : Location) : IO FileStore := do
  let mut store := store
  for n in [1:location.length + 1] do
    let above := location.take n
    match ← readNode ("/" ++ "/".intercalate above) with
    | none => return { store with files := store.files.filter (!above.isPrefixOf ·.1) }
    | some (some content) =>
      if (store.files.lookup above).map (·.content) != some content then
        store := store.overwrite above content
      return store
    | some none =>
      unless store.directories.contains above do
        store := { store with directories := store.directories ++ [above] }
  return store

def loadPath (store : FileStore) (path : Path) : IO FileStore :=
  loadLocation store (store.absolute path).parts

partial def referencesIn : Value → List String
  | .string text => if isReference text then [text] else []
  | .array items => items.flatMap referencesIn
  | .table entries => entries.flatMap fun e => referencesIn e.2
  | _ => []

def loadReferences (store : FileStore) (environment : Override.Environment) (input : Path) :
    IO FileStore := do
  let tree :=
    match store.content input with
    | .ok content => ((Input.bytes content).decode input.text).toOption.getD []
    | .error _ => []
  let mut store := store
  for text in referencesIn (.table tree) ++ (environment.map (·.2)).filter isReference do
    match Reference.path (some input.parent) text with
    | .ok path => store ← loadPath store path
    | .error _ => pure ()
  return store

def loadArguments (store : FileStore) (environment : Override.Environment) :
    Command → IO FileStore
  | .generate a | .watch a _ => do
    let output := Path.ofText (a.output.getD "")
    let input := Path.ofText (a.input.getD "")
    loadReferences (← loadPath (← loadPath store output) input) environment input
  | .diff first second _ _ => do
    loadPath (← loadPath store (Path.ofText (first.getD ""))) (Path.ofText (second.getD ""))
  | .version => return store

def writeBack (before after : FileStore) : IO Unit := do
  for (location, file) in after.files do
    if before.nextIdentity ≤ file.identity then
      let directory := "/" ++ "/".intercalate location.dropLast
      let target := "/" ++ "/".intercalate location
      IO.FS.createDirAll directory
      IO.FS.writeBinFile (target ++ ".tmp") file.content
      IO.FS.rename (target ++ ".tmp") target

def printRecords (threshold : Nat) (records : List Log.Record) : IO Unit := do
  for r in Log.atLeast threshold records do
    IO.eprintln (r.level.name ++ " " ++ r.message)

def pollInterval : Nat := 50

/-- Lets a watch loop run on what the disk holds from one look to the next. -/
partial def poll (threshold : Nat) (environment : Override.Environment) (input : Path)
    (setting : Watch.Setting) (r : Watch.Run) : IO Watch.Run := do
  IO.sleep pollInterval.toUInt32
  let before := r.store.content input |>.toOption
  let store ← loadPath r.store input
  let after := store.content input |>.toOption
  let store ← if before = after then pure store else loadReferences store environment input
  let looked := { r with store }
  let next :=
    if before = after then looked
    else looked.react setting (.batch looked.listener [.modified])
  let next := next.advance setting pollInterval
  printRecords threshold (next.coordinator.journal.drop r.coordinator.journal.length)
  writeBack store next.store
  poll threshold environment input setting next

def main (arguments : List String) : IO UInt32 := do
  let environment ← processEnvironment
  let location := (Path.ofText (← IO.currentDir).toString).parts
  let above := (List.range location.length).map location.take
  let empty := FileStore.ofDirectories location above
  let invocation := (Invocation.ofArguments arguments).toOption
  let store ←
    match invocation with
    | some i => loadArguments empty environment i.command
    | none => pure empty
  let threshold := (invocation.map (·.threshold environment)).getD Log.Level.warning.number
  let loop : CommandLine.Loop IO := fun t setting r => do
    IO.print t.output
    (← IO.getStdout).flush
    IO.eprint t.errors
    printRecords threshold r.coordinator.journal
    writeBack store r.store
    match invocation with
    | some ⟨_, .watch a _⟩ => poll threshold environment (Path.ofText (a.input.getD "")) setting r
    | _ => return r
  match ← CommandLine.run ⟨environment, none⟩ loop store arguments with
  | .error e =>
    IO.eprintln e.message
    return 1
  | .ok conclusion =>
    printRecords 0 conclusion.records
    IO.print conclusion.output
    IO.eprint conclusion.errors
    writeBack store conclusion.store
    return conclusion.status.toUInt32
