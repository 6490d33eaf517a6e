import RenderTrace.Text.Numeral
import RenderTrace.Text.Quoted
import RenderTrace.Readers.Yaml.Cursor

/-!
# Quoted scalars

A quoted scalar may run over several lines. Blanks around a line break are dropped;
one break then stands for a space, and of more breaks the first is dropped. Between
single quotes only a doubled quote is special; between double quotes a backslash
begins an escape, and one at the end of a line joins it to the next.
-/

namespace RenderTrace.Yaml

/-- What stands between the last character of a text and the next one. -/
inductive Joint where
  /-- Blanks of one line. -/
  | blanks (cs : List Char)
  /-- Line breaks that an escape swallowed the first of, or not. -/
  | breaks (escaped : Bool) (extra : Nat)
deriving DecidableEq, Repr

namespace Joint

/-- Nothing between two characters. -/
def nothing : Joint :=
  blanks []

/-- One more blank; at the start of a line it does not count. -/
def blank (c : Char) : Joint → Joint
  | blanks cs => blanks (cs ++ [c])
  | breaks escaped extra => breaks escaped extra

/-- One more line break, which drops the blanks before it. -/
def lineBreak : Joint → Joint
  | blanks _ => breaks false 0
  | breaks escaped extra => breaks escaped (extra + 1)

/-- The characters that a joint stands for. -/
def text : Joint → List Char
  | blanks cs => cs
  | breaks false 0 => [' ']
  | breaks _ extra => List.replicate extra '\n'

end Joint

/-- The text up to the closing single quote, and what follows it. -/
def singleQuoted (joint : Joint) : List Char → Option (List Char × List Char)
  | [] => none
  | '\'' :: '\'' :: rest =>
    (singleQuoted .nothing rest).map fun (t, after) => (joint.text ++ '\'' :: t, after)
  | '\'' :: rest => some (joint.text, rest)
  | c :: rest =>
    if isBlank c then singleQuoted (joint.blank c) rest
    else if c = '\n' then
      if startsMarker rest then none else singleQuoted joint.lineBreak rest
    else (singleQuoted .nothing rest).map fun (t, after) => (joint.text ++ c :: t, after)

/-- The character a one-letter escape stands for. -/
def escaped? (c : Char) : Option Char :=
  match c with
  | '0' => some (Char.ofNat 0)
  | 'a' => some '\x07'
  | 'b' => some '\x08'
  | 't' => some '\t'
  | '\t' => some '\t'
  | 'n' => some '\n'
  | 'v' => some '\x0b'
  | 'f' => some '\x0c'
  | 'r' => some '\r'
  | 'e' => some '\x1b'
  | ' ' => some ' '
  | '/' => some '/'
  | '\\' => some '\\'
  | 'N' => some (Char.ofNat 0x85)
  | '_' => some (Char.ofNat 0xA0)
  | 'L' => some (Char.ofNat 0x2028)
  | 'P' => some (Char.ofNat 0x2029)
  | c => if c = Text.doubleQuote then some c else none

/-- The character of a code point in hexadecimal digits. -/
def codePoint? (digits : List Char) : Option Char := do
  let n := Text.ofDigits 16 (← digits.mapM Text.hexValue?)
  if n.isValidChar then some (Char.ofNat n) else none

/-- The text up to the closing double quote, and what follows it. -/
def doubleQuoted (joint : Joint) : List Char → Option (List Char × List Char)
  | [] => none
  | '\\' :: '\n' :: rest =>
    if startsMarker rest then none
    else (doubleQuoted (.breaks true 0) rest).map fun (t, after) => (joint.text ++ t, after)
  | '\\' :: 'x' :: a :: b :: rest => do
    let c ← codePoint? [a, b]
    let (t, after) ← doubleQuoted .nothing rest
    return (joint.text ++ c :: t, after)
  | '\\' :: 'u' :: a :: b :: c :: d :: rest => do
    let c ← codePoint? [a, b, c, d]
    let (t, after) ← doubleQuoted .nothing rest
    return (joint.text ++ c :: t, after)
  | '\\' :: 'U' :: a :: b :: c :: d :: e :: f :: g :: h :: rest => do
    let c ← codePoint? [a, b, c, d, e, f, g, h]
    let (t, after) ← doubleQuoted .nothing rest
    return (joint.text ++ c :: t, after)
  | '\\' :: c :: rest => do
    let c ← escaped? c
    let (t, after) ← doubleQuoted .nothing rest
    return (joint.text ++ c :: t, after)
  | c :: rest =>
    if c = Text.doubleQuote then some (joint.text, rest)
    else if isBlank c then doubleQuoted (joint.blank c) rest
    else if c = '\n' then
      if startsMarker rest then none else doubleQuoted joint.lineBreak rest
    else (doubleQuoted .nothing rest).map fun (t, after) => (joint.text ++ c :: t, after)

/-- The quoted scalar that begins at a place, and the place after it. -/
def quoted? (p : Cursor) : Option (String × Cursor) := do
  let (t, after) ← match p.rest with
    | '\'' :: rest => singleQuoted .nothing rest
    | c :: rest => if c = Text.doubleQuote then doubleQuoted .nothing rest else none
    | [] => none
  return (String.ofList t, p.seek after)

end RenderTrace.Yaml
