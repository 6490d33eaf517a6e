import RenderTrace.Json
import RenderTrace.Text.Quoted

/-!
# Printing JSON

One member or item a line, each level two blanks further in, and ASCII characters
only: a character beyond is written by its UTF-16 units.
-/

namespace RenderTrace.Json

/-- A UTF-16 unit as an escape. -/
def unitEscape (n : Nat) : List Char :=
  '\\' :: 'u' :: Text.hex 4 n

/-- A character inside a printed text. -/
def escape (c : Char) : List Char :=
  if c = Text.doubleQuote ∨ c = '\\' then ['\\', c]
  else if c = '\n' then ['\\', 'n']
  else if c = '\r' then ['\\', 'r']
  else if c = '\t' then ['\\', 't']
  else if c.toNat = 8 then ['\\', 'b']
  else if c.toNat = 12 then ['\\', 'f']
  else if 0x20 ≤ c.toNat ∧ c.toNat < 0x7F then [c]
  else if c.toNat < 0x10000 then unitEscape c.toNat
  else
    let n := c.toNat - 0x10000
    unitEscape (0xD800 + n / 0x400) ++ unitEscape (0xDC00 + n % 0x400)

/-- A printed text. -/
def textChars (s : String) : List Char :=
  Text.doubleQuote :: (s.toList.flatMap escape ++ [Text.doubleQuote])

/-- The decimal digits of a natural number. -/
def naturalChars (n : Nat) : List Char :=
  Nat.toDigits 10 n

/-- A printed integer. -/
def integerChars : Int → List Char
  | .ofNat n => naturalChars n
  | .negSucc n => '-' :: naturalChars (n + 1)

/-- The start of a line at the given depth. -/
def lineStart (depth : Nat) : List Char :=
  '\n' :: List.replicate (2 * depth) ' '

mutual

/-- A printed value that begins at the given depth. -/
def chars (depth : Nat) : Json → List Char
  | null => "null".toList
  | bool true => "true".toList
  | bool false => "false".toList
  | integer n => integerChars n
  | decimal negative digits exponent =>
    (if negative then ['-'] else []) ++ naturalChars digits ++ 'e' :: integerChars exponent
  | text s => textChars s
  | array [] => ['[', ']']
  | array (x :: xs) => '[' :: (itemChars (depth + 1) (x :: xs) ++ lineStart depth ++ [']'])
  | object [] => ['{', '}']
  | object (m :: ms) => '{' :: (memberChars (depth + 1) (m :: ms) ++ lineStart depth ++ ['}'])

/-- Printed items, each on its line. -/
def itemChars (depth : Nat) : List Json → List Char
  | [] => []
  | [x] => lineStart depth ++ chars depth x
  | x :: xs => lineStart depth ++ chars depth x ++ ',' :: itemChars depth xs

/-- Printed members, each on its line. -/
def memberChars (depth : Nat) : List (String × Json) → List Char
  | [] => []
  | [(name, x)] => lineStart depth ++ textChars name ++ ':' :: ' ' :: chars depth x
  | (name, x) :: ms =>
    lineStart depth ++ textChars name ++ ':' :: ' ' :: chars depth x ++ ',' :: memberChars depth ms

end

/-- The printed value. -/
def print (v : Json) : String :=
  String.ofList (chars 0 v)

end RenderTrace.Json
