import TypedConfig.Text.Quoted

namespace TypedConfig.Go

def quoteStyle : Text.QuoteStyle :=
  ⟨[('\x07', 'a'), ('\x08', 'b'), ('\x0c', 'f'), ('\n', 'n'), ('\r', 'r'), ('\t', 't'),
    ('\x0b', 'v'), ('\\', '\\'), ('"', '"')], 0x80⟩

def quoteChars (cs : List Char) : List Char :=
  '"' :: quoteStyle.escapeAll cs ++ ['"']

def quote (s : String) : String :=
  String.ofList (quoteChars s.toList)

end TypedConfig.Go
