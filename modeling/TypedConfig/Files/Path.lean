namespace TypedConfig

inductive Root where
  | none | slash | doubleSlash
  deriving DecidableEq, Repr

structure Path where
  root : Root
  parts : List String
  deriving DecidableEq, Repr

namespace Path

def pieces : List Char → List (List Char)
  | [] => [[]]
  | c :: rest =>
    match pieces rest with
    | [] => [[c]]
    | piece :: more => if c = '/' then [] :: piece :: more else (c :: piece) :: more

def isProperPart (part : List Char) : Bool :=
  part != [] && part != ['.']

def rootOf (cs : List Char) : Root :=
  match cs.takeWhile (· == '/') with
  | [] => .none
  | [_, _] => .doubleSlash
  | _ => .slash

def ofText (text : String) : Path :=
  ⟨rootOf text.toList, ((pieces text.toList).filter isProperPart).map String.ofList⟩

def Root.text : Root → String
  | .none => ""
  | .slash => "/"
  | .doubleSlash => "//"

def text (path : Path) : String :=
  match path.root, path.parts with
  | .none, [] => "."
  | root, parts => Root.text root ++ "/".intercalate parts

def join (base path : Path) : Path :=
  match path.root with
  | .none => ⟨base.root, base.parts ++ path.parts⟩
  | _ => path

def parent (path : Path) : Path :=
  ⟨path.root, path.parts.dropLast⟩

def name (path : Path) : String :=
  path.parts.getLast?.getD ""

/-- Drops a part for every two dots behind it. Those at the front stay if the path is
relative, since nothing is known of what they lead to. -/
def collapse (isRelative : Bool) : List String → List String → List String
  | kept, [] => kept.reverse
  | kept, part :: rest =>
    if part ≠ ".." then collapse isRelative (part :: kept) rest
    else
      match kept with
      | [] => collapse isRelative (if isRelative then [part] else []) rest
      | last :: before =>
        if last = ".." then collapse isRelative (part :: kept) rest
        else collapse isRelative before rest

def normalize (path : Path) : Path :=
  ⟨path.root, collapse (path.root == .none) [] path.parts⟩

def absolute (directory path : Path) : Path :=
  (directory.join path).normalize

end Path
end TypedConfig
