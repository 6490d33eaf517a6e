import RenderTrace.Text.Printable

/-!
# Quoted texts

A text as messages show it: in single quotes, or in double quotes when it holds a
single quote and no double one. The quote, the backslash and characters without a
printed form are escaped.
-/

namespace RenderTrace.Text

/-- The apostrophe. -/
def singleQuote : Char := '\x27'

/-- The quotation mark. -/
def doubleQuote : Char := '\x22'

/-- One of the two quotes. -/
def isQuote (c : Char) : Bool :=
  c == singleQuote || c == doubleQuote

/-- A hexadecimal digit in lower case. -/
def hexDigit (n : Nat) : Char :=
  Nat.digitChar (n % 16)

/-- The last `width` hexadecimal digits of a number. -/
def hex (width n : Nat) : List Char :=
  (List.range width).reverse.map fun k => hexDigit (n / Nat.pow 16 k)

/-- The quote to put around a text. -/
def quoteFor (cs : List Char) : Char :=
  if singleQuote ∈ cs ∧ doubleQuote ∉ cs then doubleQuote else singleQuote

/-- A character as it stands inside the given quote. -/
def escape (quote c : Char) : List Char :=
  if c = quote ∨ c = '\\' then ['\\', c]
  else if c = '\n' then ['\\', 'n']
  else if c = '\r' then ['\\', 'r']
  else if c = '\t' then ['\\', 't']
  else if isPrintable c then [c]
  else if c.toNat < 0x100 then '\\' :: 'x' :: hex 2 c.toNat
  else if c.toNat < 0x10000 then '\\' :: 'u' :: hex 4 c.toNat
  else '\\' :: 'U' :: hex 8 c.toNat

/-- The text in quotes. -/
def quoted (s : String) : String :=
  let quote := quoteFor s.toList
  String.ofList (quote :: (s.toList.flatMap (escape quote) ++ [quote]))

end RenderTrace.Text
