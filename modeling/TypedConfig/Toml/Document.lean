import TypedConfig.Toml.Scalar
import TypedConfig.Toml.Tree

namespace TypedConfig.Toml

def isContainer : Value → Bool
  | .table _ | .array _ => true
  | _ => false

mutual

def value : Nat → List Char → Except DecodeError (Value × List Char)
  | 0, _ => malformed
  | _ + 1, '"' :: '"' :: '"' :: rest => do
    let (text, rest) ← multilineString '"' rest
    return (.string text, rest)
  | _ + 1, '"' :: rest => do
    let (text, rest) ← basicString rest
    return (.string text, rest)
  | _ + 1, '\'' :: '\'' :: '\'' :: rest => do
    let (text, rest) ← multilineString '\'' rest
    return (.string text, rest)
  | _ + 1, '\'' :: rest => do
    let (text, rest) ← literalString rest
    return (.string text, rest)
  | fuel + 1, '[' :: rest => do
    let (items, rest) ← arrayItems fuel rest
    return (.array items, rest)
  | fuel + 1, '\x7b' :: rest =>
    match skipSpaces rest with
    | '\x7d' :: rest => .ok (.table [], rest)
    | rest => do
      let (entries, rest) ← inlineEntries fuel [] [] rest
      return (.table entries, rest)
  | _ + 1, cs => scalar cs

def arrayItems : Nat → List Char → Except DecodeError (List Value × List Char)
  | 0, _ => malformed
  | fuel + 1, cs => do
    match ← skipLayout false cs with
    | ']' :: rest => return ([], rest)
    | cs =>
      let (item, cs) ← value fuel cs
      match ← skipLayout false cs with
      | ']' :: rest => return ([item], rest)
      | ',' :: rest =>
        let (items, rest) ← arrayItems fuel rest
        return (item :: items, rest)
      | _ => malformed

/-- The entries of an inline table up to its closing brace. Values that are tables or arrays are
complete where they stand, so that no later key may go through them. -/
def inlineEntries : Nat → Table → List Path → List Char → Except DecodeError (Table × List Char)
  | 0, _, _, _ => malformed
  | fuel + 1, table, sealedPaths, cs => do
    let ((path, item), cs) ← keyValue fuel cs
    if isSealed sealedPaths path then malformed
    else
      match addAt false path item table with
      | none => malformed
      | some table =>
        match skipSpaces cs with
        | '\x7d' :: rest => return (table, rest)
        | ',' :: rest =>
          let sealedPaths := if isContainer item then path :: sealedPaths else sealedPaths
          inlineEntries fuel table sealedPaths (skipSpaces rest)
        | _ => malformed

def keyValue : Nat → List Char → Except DecodeError ((Path × Value) × List Char)
  | 0, _ => malformed
  | fuel + 1, cs => do
    let (path, cs) ← key cs
    match cs with
    | '=' :: rest =>
      let (item, rest) ← value fuel (skipSpaces rest)
      return ((path, item), rest)
    | _ => malformed

end

/-- What has been read of a document. `declared` are the tables that may not be opened again,
`sealedPaths` the values that are complete, and `opened` the tables made by dotted keys, which
become declared with the next header. -/
structure Progress where
  root : Table
  header : Path
  declared : List Path
  sealedPaths : List Path
  opened : List Path

namespace Progress

def start : Progress := ⟨[], [], [], [], []⟩

def isSealed (p : Progress) (path : Path) : Bool :=
  Toml.isSealed p.sealedPaths path

def throughPaths (header path : Path) : List Path :=
  (List.range (path.length - 1)).map fun i => header ++ path.take (i + 1)

def addEntry (p : Progress) (path : Path) (item : Value) : Option Progress :=
  let full := p.header ++ path
  let through := throughPaths p.header path
  if through.any p.declared.contains || p.isSealed full.dropLast then none
  else (addAt true full item p.root).map fun root =>
    { p with
      root
      opened := p.opened ++ through
      sealedPaths := if isContainer item then full :: p.sealedPaths else p.sealedPaths }

def closeSection (p : Progress) : Progress :=
  { p with declared := p.declared ++ p.opened, opened := [] }

def openHeader (p : Progress) (path : Path) : Option Progress :=
  if p.declared.contains path || p.isSealed path then none
  else (openTable path p.root).map fun root =>
    { p with root, header := path, declared := path :: p.declared }

/-- A new table at the end of an array may declare again what was declared below the one before
it. -/
def appendHeader (p : Progress) (path : Path) : Option Progress :=
  if p.isSealed path then none
  else (appendTableAt path p.root).map fun root =>
    { p with
      root
      header := path
      declared := path :: p.declared.filter (!path.isPrefixOf ·)
      sealedPaths := p.sealedPaths.filter (!path.isPrefixOf ·) }

end Progress

def header (p : Progress) (cs : List Char) : Except DecodeError (Progress × List Char) := do
  let p := p.closeSection
  match cs with
  | '[' :: rest =>
    let (path, rest) ← key (skipSpaces rest)
    match p.appendHeader path, rest with
    | some p, ']' :: ']' :: rest => return (p, rest)
    | _, _ => malformed
  | cs =>
    let (path, rest) ← key (skipSpaces cs)
    match p.openHeader path, rest with
    | some p, ']' :: rest => return (p, rest)
    | _, _ => malformed

def statement (fuel : Nat) (p : Progress) (cs : List Char) :
    Except DecodeError (Progress × List Char) :=
  match cs with
  | '[' :: rest => header p rest
  | cs => do
    let ((path, item), rest) ← keyValue fuel cs
    match p.addEntry path item with
    | some p => return (p, rest)
    | none => malformed

def statements : Nat → Progress → List Char → Except DecodeError Progress
  | 0, _, _ => malformed
  | fuel + 1, p, cs => do
    let cs := skipSpaces cs
    let (p, cs) ←
      match cs with
      | [] | '\n' :: _ | '#' :: _ => pure (p, cs)
      | _ => statement (cs.length + 1) p cs
    match ← endLine cs with
    | none => return p
    | some rest => statements fuel p rest

def decode (text : String) : Except DecodeError Table := do
  let cs := unifyLineEnds text.toList
  let progress ← statements (cs.length + 1) .start cs
  return progress.root

end TypedConfig.Toml
