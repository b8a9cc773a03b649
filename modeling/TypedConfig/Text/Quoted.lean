import TypedConfig.Text.Printable

namespace TypedConfig.Text

structure QuoteStyle where
  letters : List (Char × Char)
  byteLimit : Nat

def hexDigit (n : Nat) : Char :=
  if n < 10 then Char.ofNat ('0'.toNat + n) else Char.ofNat ('a'.toNat + (n - 10))

def hex : Nat → Nat → List Char
  | 0, _ => []
  | count + 1, n => hex count (n / 16) ++ [hexDigit (n % 16)]

def QuoteStyle.escape (style : QuoteStyle) (c : Char) : List Char :=
  match style.letters.lookup c with
  | some letter => ['\\', letter]
  | none =>
    if isPrintable c then [c]
    else if c.toNat < style.byteLimit then '\\' :: 'x' :: hex 2 c.toNat
    else if c.toNat ≤ 0xffff then '\\' :: 'u' :: hex 4 c.toNat
    else '\\' :: 'U' :: hex 8 c.toNat

def QuoteStyle.escapeAll (style : QuoteStyle) (cs : List Char) : List Char :=
  cs.flatMap style.escape

def messageQuote (s : String) : Char :=
  if s.toList.contains '\'' && !s.toList.contains '"' then '"' else '\''

def messageStyle (quote : Char) : QuoteStyle :=
  ⟨[('\n', 'n'), ('\r', 'r'), ('\t', 't'), ('\\', '\\'), (quote, quote)], 0x100⟩

def shown (s : String) : String :=
  let quote := messageQuote s
  String.ofList (quote :: (messageStyle quote).escapeAll s.toList ++ [quote])

end TypedConfig.Text
