import TypedConfig.Files.Store
import TypedConfig.Value.Kind

namespace TypedConfig

inductive ReferenceError where
  | notReference (text : String)
  | notFound (path : Path)
  | tooLarge (path : Path) (limit : Int) (actual : Nat)
  | unreadable (path : Path) (fault : Fault)
  | nullByte
  deriving DecidableEq, Repr

def ReferenceError.message : ReferenceError → String
  | .notReference text => "not a file reference: " ++ Text.shown text
  | .notFound path => "file not found: " ++ path.text ++ " (referenced in config)"
  | .tooLarge path limit actual =>
    "file " ++ path.text ++ " exceeds max size " ++ toString limit ++ " bytes (actual: " ++
      toString actual ++ " bytes)"
  | .unreadable path fault => "failed to read file " ++ path.text ++ ": " ++ fault.reason
  | .nullByte => Fault.nullByte.reason

def ReferenceError.ofFault (path : Path) : Fault → ReferenceError
  | .notFound => .notFound path
  | .nullByte => .nullByte
  | fault => .unreadable path fault

variable {σ : Type} [FileSystem σ]

namespace Reference

def baseOfText (text : String) : Option Path :=
  if text.isEmpty then none else some (Path.ofText text)

def isSeparator (c : Char) : Bool :=
  c == '/' || c == '\\'

/-- The path behind the marker. Beneath a base directory, separators at its front are dropped,
so that it cannot be absolute. -/
def path (base : Option Path) (text : String) : Except ReferenceError Path :=
  if !isReference text then .error (.notReference text)
  else
    let relative := text.toList.drop referenceMarker.length
    match base with
    | none => .ok (Path.ofText (String.ofList relative))
    | some directory =>
      .ok (directory.join (Path.ofText (String.ofList (relative.dropWhile isSeparator))))

/-- The content of the file, its size checked before it is read. A limit of zero or less is no
limit. -/
def resolve (store : σ) (base : Option Path) (limit : Int) (text : String) :
    Except ReferenceError ByteArray := do
  let path ← path base text
  let size ← (FileSystem.size store path).mapError (.ofFault path)
  if 0 < limit ∧ limit < size then throw (.tooLarge path limit size)
  (FileSystem.content store path).mapError (.ofFault path)

end Reference

structure Loader where
  base : Option Path
  limit : Int
  cache : List (Path × ByteArray)

namespace Loader

def defaultLimit : Nat := 1024 * 1024

def new (base : Option Path) (limit : Int) : Loader :=
  ⟨base, limit, []⟩

/-- The content behind a reference, read on the first use of its absolute path. -/
def load (store : σ) (text : String) :
    ExceptT ReferenceError (StateM Loader) ByteArray := do
  let loader ← get
  let path ← MonadExcept.ofExcept (Reference.path loader.base text)
  let key := FileSystem.absolute store path
  match loader.cache.lookup key with
  | some content => return content
  | none =>
    let content ← MonadExcept.ofExcept (Reference.resolve store loader.base loader.limit text)
    set { loader with cache := loader.cache ++ [(key, content)] }
    return content

mutual

def validate (store : σ) : Value → ExceptT ReferenceError (StateM Loader) Nat
  | .string text =>
    if isReference text then do
      let _ ← load store text
      return 1
    else return 0
  | .array items => validateItems store items
  | .table entries => validateEntries store entries
  | _ => return 0

def validateItems (store : σ) :
    List Value → ExceptT ReferenceError (StateM Loader) Nat
  | [] => return 0
  | v :: rest => do
    let first ← validate store v
    let others ← validateItems store rest
    return first + others

def validateEntries (store : σ) :
    List (String × Value) → ExceptT ReferenceError (StateM Loader) Nat
  | [] => return 0
  | (_, v) :: rest => do
    let first ← validate store v
    let others ← validateEntries store rest
    return first + others

end

end Loader
end TypedConfig
