import TypedConfig.Decimal.Numeral

namespace TypedConfig.Toml

inductive DecodeError where
  | malformed
  | tooManyDigits (error : Decimal.LimitError)
  deriving DecidableEq, Repr

def malformed {α : Type} : Except DecodeError α := .error .malformed

def isSpace (c : Char) : Bool :=
  c == ' ' || c == '\t'

def skipSpaces (cs : List Char) : List Char :=
  cs.dropWhile isSpace

def isIllegal (c : Char) : Bool :=
  c != '\t' && (c.toNat < 0x20 || c.toNat == 0x7f)

def isIllegalIn (multiline : Bool) (c : Char) : Bool :=
  isIllegal c && !(multiline && c == '\n')

def skipLayout : Bool → List Char → Except DecodeError (List Char)
  | _, [] => .ok []
  | true, c :: rest =>
    if c == '\n' then skipLayout false rest
    else if isIllegal c then malformed
    else skipLayout true rest
  | false, c :: rest =>
    if isSpace c || c == '\n' then skipLayout false rest
    else if c == '#' then skipLayout true rest
    else .ok (c :: rest)

/-- The text after the end of a line, or nothing at the end of the document. Only spaces and a
comment may come before it. -/
def endLine (cs : List Char) : Except DecodeError (Option (List Char)) :=
  let comment := skipSpaces cs
  let ending :=
    match comment with
    | '#' :: text => if (text.takeWhile (· != '\n')).any isIllegal then none
        else some (text.dropWhile (· != '\n'))
    | _ => some comment
  match ending with
  | some [] => .ok none
  | some ('\n' :: rest) => .ok (some rest)
  | _ => malformed

def unifyLineEnds : List Char → List Char
  | '\r' :: '\n' :: rest => '\n' :: unifyLineEnds rest
  | c :: rest => c :: unifyLineEnds rest
  | [] => []

def hexValue? (c : Char) : Option Nat :=
  if c.isDigit then some (c.toNat - '0'.toNat)
  else if 'a' ≤ c ∧ c ≤ 'f' then some (c.toNat - 'a'.toNat + 10)
  else if 'A' ≤ c ∧ c ≤ 'F' then some (c.toNat - 'A'.toNat + 10)
  else none

def hexDigits : Nat → Nat → List Char → Option (Nat × List Char)
  | 0, n, cs => some (n, cs)
  | _ + 1, _, [] => none
  | count + 1, n, c :: rest =>
    match hexValue? c with
    | some d => hexDigits count (16 * n + d) rest
    | none => none

def codePoint (count : Nat) (cs : List Char) : Except DecodeError (List Char × List Char) :=
  match hexDigits count 0 cs with
  | some (n, rest) => if n.isValidChar then .ok ([Char.ofNat n], rest) else malformed
  | none => malformed

def lineContinuation (cs : List Char) : Except DecodeError (List Char × List Char) :=
  match skipSpaces cs with
  | [] => .ok ([], [])
  | '\n' :: rest => .ok ([], rest.dropWhile fun c => isSpace c || c == '\n')
  | _ => malformed

def escape (multiline : Bool) : List Char → Except DecodeError (List Char × List Char)
  | 'b' :: rest => .ok (['\x08'], rest)
  | 't' :: rest => .ok (['\t'], rest)
  | 'n' :: rest => .ok (['\n'], rest)
  | 'f' :: rest => .ok (['\x0c'], rest)
  | 'r' :: rest => .ok (['\r'], rest)
  | '"' :: rest => .ok (['"'], rest)
  | '\\' :: rest => .ok (['\\'], rest)
  | 'u' :: rest => codePoint 4 rest
  | 'U' :: rest => codePoint 8 rest
  | cs => if multiline then lineContinuation cs else malformed

def basicText (multiline : Bool) : Nat → List Char → Except DecodeError (List Char × List Char)
  | 0, _ => malformed
  | _, [] => malformed
  | fuel + 1, '\\' :: rest => do
    let (replaced, rest) ← escape multiline rest
    let (text, rest) ← basicText multiline fuel rest
    return (replaced ++ text, rest)
  | fuel + 1, '"' :: rest =>
    if !multiline then .ok ([], rest)
    else
      match rest with
      | '"' :: '"' :: rest => .ok ([], rest)
      | _ => do
        let (text, rest) ← basicText multiline fuel rest
        return ('"' :: text, rest)
  | fuel + 1, c :: rest =>
    if isIllegalIn multiline c then malformed
    else do
      let (text, rest) ← basicText multiline fuel rest
      return (c :: text, rest)

def basicString (cs : List Char) : Except DecodeError (String × List Char) := do
  let (text, rest) ← basicText false (cs.length + 1) cs
  return (String.ofList text, rest)

def literalText (multiline : Bool) : List Char → Except DecodeError (List Char × List Char)
  | [] => malformed
  | '\'' :: rest =>
    if !multiline then .ok ([], rest)
    else
      match rest with
      | '\'' :: '\'' :: rest => .ok ([], rest)
      | _ => do
        let (text, rest) ← literalText multiline rest
        return ('\'' :: text, rest)
  | c :: rest =>
    if isIllegalIn multiline c then malformed
    else do
      let (text, rest) ← literalText multiline rest
      return (c :: text, rest)

def literalString (cs : List Char) : Except DecodeError (String × List Char) := do
  let (text, rest) ← literalText false cs
  return (String.ofList text, rest)

def extraQuotes (quote : Char) : List Char → List Char × List Char
  | a :: b :: rest =>
    if a = quote then
      if b = quote then ([a, b], rest) else ([a], b :: rest)
    else ([], a :: b :: rest)
  | [a] => if a = quote then ([a], []) else ([], [a])
  | [] => ([], [])

def multilineString (quote : Char) (cs : List Char) : Except DecodeError (String × List Char) := do
  let body := match cs with
    | '\n' :: rest => rest
    | cs => cs
  let (text, rest) ←
    if quote = '"' then basicText true (body.length + 1) body else literalText true body
  let (extra, rest) := extraQuotes quote rest
  return (String.ofList (text ++ extra), rest)

def isBareKeyChar (c : Char) : Bool :=
  c.isAlphanum || c == '-' || c == '_'

def keyPart : List Char → Except DecodeError (String × List Char)
  | '\'' :: rest => literalString rest
  | '"' :: rest => basicString rest
  | cs =>
    match cs.takeWhile isBareKeyChar with
    | [] => malformed
    | part => .ok (String.ofList part, cs.dropWhile isBareKeyChar)

def keyParts : Nat → List Char → Except DecodeError (List String × List Char)
  | 0, _ => malformed
  | fuel + 1, cs => do
    let (part, rest) ← keyPart cs
    match skipSpaces rest with
    | '.' :: rest =>
      let (parts, rest) ← keyParts fuel (skipSpaces rest)
      return (part :: parts, rest)
    | rest => return ([part], rest)

def key (cs : List Char) : Except DecodeError (List String × List Char) :=
  keyParts (cs.length + 1) cs

end TypedConfig.Toml
