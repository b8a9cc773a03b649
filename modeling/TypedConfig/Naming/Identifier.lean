namespace TypedConfig.Naming

def isWordChar (c : Char) : Bool :=
  c.isAlphanum

def chunks : List Char → List (List Char)
  | [] => [[]]
  | c :: rest =>
    match isWordChar c, chunks rest with
    | true, chunk :: more => (c :: chunk) :: more
    | true, [] => [[c]]
    | false, more => [] :: more

/-- Whether a word ends between `a` and `b`, the next character being `after`: before a capital
that follows a small letter or a digit, and before the last of several capitals if a small
letter follows it. -/
def isBoundary (a b : Char) (after : Option Char) : Bool :=
  b.isUpper && (a.isLower || a.isDigit || (a.isUpper && after.any Char.isLower))

def words : List Char → List (List Char)
  | [] => []
  | [a] => [[a]]
  | a :: b :: rest =>
    match words (b :: rest) with
    | [] => [[a]]
    | word :: more => if isBoundary a b rest.head? then [a] :: word :: more else (a :: word) :: more

def capitalize : List Char → List Char
  | [] => []
  | c :: rest => c.toUpper :: rest

def pascalChars (key : List Char) : List Char :=
  let joined := ((chunks key).flatMap words).flatMap capitalize
  match joined with
  | [] => ['X']
  | c :: _ => if c.isDigit then 'X' :: joined else joined

/-- The exported identifier of a key: its words joined, each with a capital. An `X` stands in
front of a digit and in place of nothing. -/
def pascalCase (key : String) : String :=
  String.ofList (pascalChars key.toList)

inductive Suffix where
  | config | item
  deriving DecidableEq, Repr

def Suffix.text : Suffix → String
  | .config => "Config"
  | .item => "Item"

/-- The name without the suffix, if it ends in it and does not consist of it. -/
def dropSuffix? (name suffix : List Char) : Option (List Char) :=
  if suffix.isSuffixOf name && suffix.length < name.length then
    some (name.take (name.length - suffix.length))
  else none

def strip (name : String) : String :=
  match dropSuffix? name.toList Suffix.config.text.toList with
  | some rest => String.ofList rest
  | none =>
    match dropSuffix? name.toList Suffix.item.text.toList with
    | some rest => String.ofList rest
    | none => name

def topLevelTypeName (key suffix : String) : String :=
  pascalCase key ++ suffix

/-- The type below `parent` keeps the stem of its parent's name. -/
def childTypeName (parent key suffix : String) : String :=
  strip parent ++ pascalCase key ++ suffix

end TypedConfig.Naming
