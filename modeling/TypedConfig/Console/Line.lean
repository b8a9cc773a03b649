import TypedConfig.Text.Blank
import TypedConfig.Text.Cluster

namespace TypedConfig.Console

open Text (Cluster isBlank dropBlankEnd)

def blanks (count : Nat) : List Char :=
  List.replicate count ' '

def padEnd (width : Nat) (cs : List Char) : List Char :=
  cs ++ blanks (width - Text.width cs)

def centre (width : Nat) (cs : List Char) : List Char :=
  padEnd width (blanks ((width - Text.width cs) / 2) ++ cs)

def pieces (ends : Char → Bool) : List Char → List (List Char)
  | [] => [[]]
  | c :: rest =>
    match pieces ends rest with
    | [] => [[c]]
    | piece :: more => if ends c then [] :: piece :: more else (c :: piece) :: more

def isControl (c : Char) : Bool :=
  [7, 8, 11, 12, 13].contains c.toNat

def lines (text : String) : List (List Char) :=
  pieces (· == '\n') (text.toList.filter (!isControl ·))

def tabWidth : Nat := 8

/-- Puts the pieces between tabs together again, starting in a column. Each but the last goes on to
the next column that is a multiple of the width of tabs. -/
def joinAtTabs : Nat → List (List Char) → List Char
  | _, [] => []
  | _, [piece] => piece
  | column, piece :: rest =>
    let reached := column + Text.width (piece ++ [' '])
    let stop := (reached + tabWidth - 1) / tabWidth * tabWidth
    piece ++ ' ' :: blanks (stop - reached) ++ joinAtTabs stop rest

def expandTabs (line : List Char) : List Char :=
  joinAtTabs 0 (pieces (· == '\t') line)

def words (cs : List Char) : List (List Char) :=
  match cs.splitBy fun a b => !isBlank a || isBlank b with
  | [] => []
  | [word] => if word.all isBlank then [] else [word]
  | first :: word :: rest =>
    if first.all isBlank then (first ++ word) :: rest else first :: word :: rest

def prepend (cs : List Char) : List (List Char) → List (List Char)
  | [] => [cs]
  | piece :: more => (cs ++ piece) :: more

def chop (width : Nat) : Nat → List Cluster → List (List Char)
  | _, [] => [[]]
  | used, cluster :: rest =>
    if width < used + cluster.cells then [] :: prepend cluster.text (chop width cluster.cells rest)
    else prepend cluster.text (chop width (used + cluster.cells) rest)

inductive Overflow where
  | fold | ellipsis
  deriving DecidableEq, Repr

def fill (width : Nat) (overflow : Overflow) :
    List Char → Nat → List (List Char) → List (List Char)
  | line, _, [] => [line]
  | line, used, word :: rest =>
    let room := Text.width (dropBlankEnd word)
    if used + room ≤ width then
      fill width overflow (line ++ word) (used + Text.width word) rest
    else
      let before := if line.isEmpty then [] else [line]
      if overflow = .fold ∧ width < room then
        let chopped := chop width 0 (Text.clusters word)
        let last := chopped.getLast?.getD []
        before ++ chopped.dropLast ++ fill width overflow last (Text.width last) rest
      else before ++ fill width overflow word (Text.width word) rest

def wrap (width : Nat) (overflow : Overflow) (line : List Char) : List (List Char) :=
  if line.all isBlank then [line] else fill width overflow [] 0 (words line)

def dropExcess (width : Nat) (cs : List Char) : List Char :=
  let blankEnd := cs.length - (dropBlankEnd cs).length
  cs.take (cs.length - min blankEnd (cs.length - width))

def cut : Nat → List Cluster → List Char
  | _, [] => []
  | width, cluster :: rest =>
    if width = 0 then []
    else if width < cluster.cells then [' ']
    else cluster.text ++ cut (width - cluster.cells) rest

def fit (width : Nat) (cs : List Char) : List Char :=
  if Text.width cs ≤ width then padEnd width cs else cut width (Text.clusters cs)

def truncate (width : Nat) (overflow : Overflow) (cs : List Char) : List Char :=
  if Text.width cs ≤ width then cs
  else
    match overflow with
    | .fold => fit width cs
    | .ellipsis => fit (width - 1) cs ++ ['…']

def layOut (width : Nat) (overflow : Overflow) (wraps : Bool) (text : String) :
    List (List Char) :=
  (lines text).flatMap fun line =>
    let line := expandTabs line
    let parts := if wraps then wrap width overflow line else [line]
    parts.map fun part => truncate width overflow (dropExcess width part)

def consoleWidth : Nat := 400

def join (lines : List (List Char)) : String :=
  "\n".intercalate (lines.map String.ofList)

def shown (text : String) : String :=
  join (layOut consoleWidth .fold true text)

def shownUnbroken (text : String) : String :=
  join ((lines text).map expandTabs)

def beforeTag (tag text : String) : String :=
  let front := Text.dropTrailing (· == '\\') text.toList
  let count := text.length - front.length
  String.ofList (front ++ List.replicate (count / 2) '\\') ++ if count % 2 = 0 then "" else tag

end TypedConfig.Console
