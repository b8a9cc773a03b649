import TypedConfig.Diff.Report
import TypedConfig.Generation.Generator

namespace TypedConfig.Diff

def readTable (store : FileStore) (path : Path) : Except GenerationError Table :=
  match store.content path with
  | .ok content => (Input.bytes content).decode path.text
  | .error .nullByte => .error .nullByte
  | .error fault => .error (.parse path.text (.unreadable fault))

def files (store : FileStore) (first second : String) : Except GenerationError Report := do
  let left ← readTable store (Path.ofText first)
  let right ← readTable store (Path.ofText second)
  return ⟨first, second, compare left right ""⟩

end TypedConfig.Diff
