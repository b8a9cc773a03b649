import TypedConfig.Files.Path

namespace TypedConfig.PackageName

def fallback : String := "config"

def wrappers : List String := ["internal", "pkg", "lib"]

def isCurrent (path : Path) : Bool :=
  path.text == "."

/-- The name of the directory, or of the one above it if the directory is a wrapper in another
one. -/
def infer (outputFile : Path) : String :=
  let directory := outputFile.parent
  if isCurrent directory then fallback
  else
    let name :=
      if wrappers.contains directory.name && !isCurrent directory.parent then
        directory.parent.name
      else directory.name
    if name.isEmpty then fallback else name

end TypedConfig.PackageName
