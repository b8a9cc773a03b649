import TypedConfig.Files.Path
import TypedConfig.Text.Quoted

namespace TypedConfig

abbrev Location := List String

/-- A file keeps its identity while its content is overwritten; one that takes its place has
another. -/
structure StoredFile where
  identity : Nat
  content : ByteArray

/-- The files and directories at their locations. There are no links, no devices, no rights to read
or write, and always enough space. -/
structure FileStore where
  files : List (Location × StoredFile)
  directories : List Location
  workingDirectory : Location
  nextIdentity : Nat

inductive Node where
  | file (file : StoredFile)
  | directory

inductive Fault where
  | notFound | busy | exists | notDirectory | isDirectory | nameTooLong | nullByte
  deriving DecidableEq, Repr

namespace Fault

def number : Fault → Nat
  | .notFound => 2
  | .busy => 16
  | .exists => 17
  | .notDirectory => 20
  | .isDirectory => 21
  | .nameTooLong => 36
  | .nullByte => 0

def reason : Fault → String
  | .notFound => "No such file or directory"
  | .busy => "Device or resource busy"
  | .exists => "File exists"
  | .notDirectory => "Not a directory"
  | .isDirectory => "Is a directory"
  | .nameTooLong => "File name too long"
  | .nullByte => "embedded null byte"

end Fault

structure AccessError where
  fault : Fault
  path : String
  target : Option String
  deriving DecidableEq, Repr

def AccessError.message (e : AccessError) : String :=
  if e.fault = .nullByte then e.fault.reason
  else
    "[Errno " ++ toString e.fault.number ++ "] " ++ e.fault.reason ++ ": " ++
      Text.shown e.path ++ (e.target.map (" -> " ++ Text.shown ·)).getD ""

namespace FileStore

def ofDirectories (workingDirectory : Location) (others : List Location) : FileStore where
  files := []
  directories := workingDirectory :: others
  workingDirectory
  nextIdentity := 1

def node? (store : FileStore) (location : Location) : Option Node :=
  match store.files.lookup location with
  | some file => some (.file file)
  | none => if location = [] ∨ location ∈ store.directories then some .directory else none

def maxNameBytes : Nat := 255
def maxPathBytes : Nat := 4095

/-- Follows the parts of a path through directories that exist. The last part may be missing. -/
def walk (store : FileStore) : Location → List String → Except Fault Location
  | location, [] => .ok location
  | location, part :: rest =>
    match store.node? location with
    | none => .error .notFound
    | some (.file _) => .error .notDirectory
    | some .directory =>
      if part = ".." then walk store location.dropLast rest
      else if maxNameBytes < part.utf8ByteSize then .error .nameTooLong
      else walk store (location ++ [part]) rest

def locate (store : FileStore) (path : Path) : Except Fault Location :=
  let text := path.text
  if text.toList.contains '\x00' then .error .nullByte
  else if maxPathBytes < text.utf8ByteSize then .error .nameTooLong
  else store.walk (if path.root = .none then store.workingDirectory else []) path.parts

def find (store : FileStore) (path : Path) : Except Fault Node := do
  match store.node? (← store.locate path) with
  | some node => return node
  | none => throw .notFound

def content (store : FileStore) (path : Path) : Except Fault ByteArray := do
  match ← store.find path with
  | .file file => return file.content
  | .directory => throw .isDirectory

def directorySize : Nat := 4096

/-- The length of what the file holds. A device, whose size says nothing of what is read from it,
and a file that grows between the two looks at it have no place in a store. -/
def size (store : FileStore) (path : Path) : Except Fault Nat := do
  match ← store.find path with
  | .file file => return file.content.size
  | .directory => return directorySize

def isDirectory (store : FileStore) (path : Path) : Bool :=
  match store.find path with
  | .ok .directory => true
  | _ => false

def fileExists (store : FileStore) (path : Path) : Bool :=
  (store.find path).isOk

/-- What keeps a path from being looked at, so that it cannot be told whether anything stands there.
Below a file or behind a missing directory there is nothing for certain. -/
def obstacle? (store : FileStore) (path : Path) : Option Fault :=
  match store.find path with
  | .ok _ | .error .notFound | .error .notDirectory | .error .nullByte => none
  | .error fault => some fault

def workingPath (store : FileStore) : Path :=
  ⟨.slash, store.workingDirectory⟩

def absolute (store : FileStore) (path : Path) : Path :=
  Path.absolute store.workingPath path

def directoryIdentity : Nat := 0

def identity? (store : FileStore) (path : Path) : Option Nat :=
  match store.find path with
  | .ok (.file file) => some file.identity
  | .ok .directory => some directoryIdentity
  | .error _ => none

def put (store : FileStore) (location : Location) (content : ByteArray) : FileStore :=
  { store with
    files := store.files.filter (·.1 ≠ location) ++ [(location, ⟨store.nextIdentity, content⟩)]
    nextIdentity := store.nextIdentity + 1 }

def overwrite (store : FileStore) (location : Location) (content : ByteArray) : FileStore :=
  match store.files.lookup location with
  | none => store.put location content
  | some file =>
    { store with
      files := store.files.filter (·.1 ≠ location) ++ [(location, ⟨file.identity, content⟩)] }

def remove (store : FileStore) (location : Location) : FileStore :=
  { store with files := store.files.filter (·.1 ≠ location) }

def makeDirectory (store : FileStore) (path : Path) : Except Fault FileStore := do
  let location ← store.locate path
  match store.node? location with
  | some _ => throw .exists
  | none => return { store with directories := store.directories ++ [location] }

end FileStore

/-- What reading asks of a file system. Where a path leads is for `size` and `content` to find out;
`absolute` goes by its text alone. -/
class FileSystem (σ : Type) where
  absolute (system : σ) (path : Path) : Path
  size (system : σ) (path : Path) : Except Fault Nat
  content (system : σ) (path : Path) : Except Fault ByteArray

instance : FileSystem FileStore where
  absolute := FileStore.absolute
  size := FileStore.size
  content := FileStore.content

end TypedConfig
