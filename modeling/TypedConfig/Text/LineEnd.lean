namespace TypedConfig.Text

def unifyLineEnds : List Char → List Char
  | '\r' :: '\n' :: rest => '\n' :: unifyLineEnds rest
  | '\r' :: rest => '\n' :: unifyLineEnds rest
  | c :: rest => c :: unifyLineEnds rest
  | [] => []

def readLines (s : String) : String :=
  String.ofList (unifyLineEnds s.toList)

end TypedConfig.Text
