import TypedConfig.Console.Line

namespace TypedConfig.Console

structure Table where
  title : String
  rows : List (String × String)

namespace Table

def head : String × String := ("Item", "Value")

/-- An item that comes twice keeps its first place and takes its last value. -/
def insert (item value : String) : List (String × String) → List (String × String)
  | [] => [(item, value)]
  | (other, v) :: rest =>
    if other = item then (other, value) :: rest else (other, v) :: insert item value rest

def ofPairs (title : String) (pairs : List (String × String)) : Table :=
  ⟨title, pairs.foldl (fun rows p => insert p.1 p.2 rows) []⟩

def endsLine (c : Char) : Bool :=
  ['\n', '\x1c', '\x1d', '\x1e', '\x85', '\u2028', '\u2029'].contains c

def textWidth (text : String) : Nat :=
  ((pieces endsLine (text.toList.filter (!isControl ·))).map Text.width).foldl max 0

def columnWidth (cells : List String) : Nat :=
  (cells.map textWidth).foldl max 0 + 2

def bars : Nat := 3

/-- The widths of both columns, with their blanks. The first takes what it needs, and the second
has to do with what is left. -/
def widths (t : Table) : Nat × Nat :=
  let room := consoleWidth - bars
  let first := min room (columnWidth (head.1 :: t.rows.map (·.1)))
  (first, min (room - first) (columnWidth (head.2 :: t.rows.map (·.2))))

structure Rule where
  left : Char
  fill : Char
  crossing : Char
  right : Char

def topRule : Rule := ⟨'┏', '━', '┳', '┓'⟩
def headRule : Rule := ⟨'┡', '━', '╇', '┩'⟩
def bottomRule : Rule := ⟨'└', '─', '┴', '┘'⟩

def headBar : Char := '┃'
def bodyBar : Char := '│'

def Rule.line (rule : Rule) (first second : Nat) : List Char :=
  rule.left :: List.replicate first rule.fill ++
    rule.crossing :: List.replicate second rule.fill ++ [rule.right]

def cellLines (width : Nat) (wraps : Bool) (text : String) : List (List Char) :=
  if width ≤ 2 then []
  else
    (layOut (width - 2) .ellipsis wraps text).map fun line =>
      ' ' :: padEnd (width - 2) line ++ [' ']

def rowLines (bar : Char) (first second : Nat) (row : String × String) : List (List Char) :=
  let left := cellLines first false row.1
  let right := cellLines second true row.2
  (List.range (max 1 (max left.length right.length))).map fun i =>
    bar :: (left[i]?).getD (blanks first) ++ bar :: (right[i]?).getD (blanks second) ++ [bar]

def titleLines (width : Nat) (title : String) : List (List Char) :=
  if title.isEmpty then []
  else (layOut width .fold true title).map fun line => centre width (Text.dropBlankEnd line)

def text (t : Table) : String :=
  let (first, second) := t.widths
  let all := titleLines (first + second + bars) t.title ++
    topRule.line first second :: rowLines headBar first second head ++
    headRule.line first second :: t.rows.flatMap (rowLines bodyBar first second) ++
    [bottomRule.line first second]
  String.join (all.map fun line => String.ofList line ++ "\n")

end Table
end TypedConfig.Console
