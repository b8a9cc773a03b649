import TypedConfig.Files.Store

namespace TypedConfig

/-- A step that changes the file system and may be refused. What was changed before a refusal
stays changed. -/
abbrev FileAction := ExceptT AccessError (StateM FileStore)

namespace FileStore

def refuse {α : Type} (fault : Fault) (path : Path) : FileAction α :=
  throw ⟨fault, path.text, none⟩

def acceptExisting (fault : Fault) (path : Path) : FileAction Unit := do
  if (← get).isDirectory path then return () else refuse fault path

def makeDirectories (path : Path) : FileAction Unit := do
  match (← get).makeDirectory path with
  | .ok store => set store
  | .error .notFound =>
    if _h : path.parts = [] then refuse .notFound path
    else
      makeDirectories path.parent
      match (← get).makeDirectory path with
      | .ok store => set store
      | .error .notFound => refuse .notFound path
      | .error fault => acceptExisting fault path
  | .error fault => acceptExisting fault path
termination_by path.parts.length
decreasing_by
  have := List.length_pos_iff.2 _h
  simp only [Path.parent, List.length_dropLast]
  omega

def temporaryName (name : String) (attempt : Nat) : String :=
  let token := toString attempt
  "." ++ name ++ "." ++ String.ofList (List.replicate (8 - token.length) '0') ++ token ++ ".tmp"

def maxAttempts : Nat := 10000

def createTemporary (target : Path) : FileAction Path := do
  let store ← get
  let directory := store.absolute target.parent
  let candidate (attempt : Nat) : Path :=
    directory.join ⟨.none, [temporaryName target.name attempt]⟩
  match (List.range maxAttempts).find? fun n => !store.fileExists (candidate n) with
  | none => refuse .exists (candidate 0)
  | some attempt =>
    let temporary := candidate attempt
    match store.locate temporary with
    | .error fault => refuse fault temporary
    | .ok location => set (store.put location ByteArray.empty)
    return temporary

def checkReplaceable (store : FileStore) (target : Path) : Except Fault Location := do
  if target.parts = [] ∨ target.name = ".." then throw .busy
  let location ← store.locate target
  match store.node? location with
  | some .directory => throw .isDirectory
  | _ => return location

/-- Fills the temporary file and moves it to the target, or removes it. Filling it and setting its
mode do not fail here: a store has neither a full disk nor rights. -/
def replace (temporary target : Path) (content : ByteArray) : FileAction Unit := do
  let store ← get
  match store.locate temporary with
  | .error fault => refuse fault temporary
  | .ok temporaryLocation =>
    match store.checkReplaceable target with
    | .error fault =>
      set (store.remove temporaryLocation)
      throw ⟨fault, temporary.text, some target.text⟩
    | .ok location => set ((store.remove temporaryLocation).put location content)

/-- Writes the whole content or leaves every file as it was; directories above the target are
created as needed. Of the steps after the temporary file is made only the last can be refused, and
what removes the file then is what any failure between them would meet. -/
def writeAtomic (target : Path) (content : ByteArray) : FileAction Path := do
  makeDirectories target.parent
  let temporary ← createTemporary target
  replace temporary target content
  return target

end FileStore
end TypedConfig
