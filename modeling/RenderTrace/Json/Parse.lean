import RenderTrace.Json
import RenderTrace.Text.Numeral
import RenderTrace.Text.Quoted

/-!
# Reading JSON

A reader of standard JSON. Each production takes characters and gives its value
with the characters after it. Blanks may stand around every value, comma and
colon. A number with a fraction or an exponent is read as a decimal.
-/

namespace RenderTrace.Json

/-- A blank of JSON. -/
def isBlank (c : Char) : Bool :=
  c == ' ' || c == '\t' || c == '\n' || c == '\r'

/-- The characters after leading blanks. -/
def skipBlanks (cs : List Char) : List Char :=
  cs.dropWhile isBlank

/-- The value of four hexadecimal digits. -/
def hexUnit? (a b c d : Char) : Option Nat := do
  return Text.ofDigits 16 (← [a, b, c, d].mapM Text.hexValue?)

/-- The character a one-letter escape stands for. -/
def escaped? (c : Char) : Option Nat :=
  if c = Text.doubleQuote ∨ c = '\\' ∨ c = '/' then some c.toNat
  else if c = 'b' then some 8
  else if c = 'f' then some 12
  else if c = 'n' then some 10
  else if c = 'r' then some 13
  else if c = 't' then some 9
  else none

/-- The units of a text up to its closing quote: code points, or UTF-16 units of escapes. -/
def textUnits : List Char → Option (List Nat × List Char)
  | [] => none
  | '\\' :: 'u' :: a :: b :: c :: d :: rest => do
    let unit ← hexUnit? a b c d
    let (units, after) ← textUnits rest
    return (unit :: units, after)
  | '\\' :: c :: rest => do
    let unit ← escaped? c
    let (units, after) ← textUnits rest
    return (unit :: units, after)
  | c :: rest =>
    if c = Text.doubleQuote then some ([], rest)
    else if c.toNat < 0x20 then none
    else do
      let (units, after) ← textUnits rest
      return (c.toNat :: units, after)

/-- The characters that units spell; a lone surrogate spells none. -/
def joinUnits : List Nat → Option (List Char)
  | [] => some []
  | h :: l :: rest =>
    if 0xD800 ≤ h ∧ h < 0xDC00 then
      if 0xDC00 ≤ l ∧ l < 0xE000 then
        (joinUnits rest).map fun cs =>
          Char.ofNat (0x10000 + (h - 0xD800) * 0x400 + (l - 0xDC00)) :: cs
      else none
    else if 0xDC00 ≤ h ∧ h < 0xE000 then none
    else (joinUnits (l :: rest)).map fun cs => Char.ofNat h :: cs
  | [h] => if 0xD800 ≤ h ∧ h < 0xE000 then none else some [Char.ofNat h]

/-- A text whose opening quote has been read. -/
def parseText (cs : List Char) : Option (String × List Char) := do
  let (units, after) ← textUnits cs
  let chars ← joinUnits units
  return (String.ofList chars, after)

/-- The number that ASCII digits spell. -/
def digitsValue (cs : List Char) : Nat :=
  cs.foldl (fun n c => n * 10 + (c.toNat - 0x30)) 0

/-- A run of digits, which may not be empty. -/
def parseDigits (cs : List Char) : Option (List Char × List Char) :=
  match cs.span (·.isDigit) with
  | ([], _) => none
  | (ds, rest) => some (ds, rest)

/-- The digits after a decimal point, if there is one. -/
def parseFraction (cs : List Char) : Option (Option (List Char) × List Char) :=
  match cs with
  | '.' :: rest => (parseDigits rest).map fun (ds, after) => (some ds, after)
  | _ => some (none, cs)

/-- An exponent, if there is one. -/
def parseExponent (cs : List Char) : Option (Option Int × List Char) :=
  match cs with
  | c :: rest =>
    if c = 'e' ∨ c = 'E' then
      match rest with
      | '-' :: more => (parseDigits more).map fun (ds, after) => (some (-(digitsValue ds : Int)), after)
      | '+' :: more => (parseDigits more).map fun (ds, after) => (some (digitsValue ds : Int), after)
      | more => (parseDigits more).map fun (ds, after) => (some (digitsValue ds : Int), after)
    else some (none, cs)
  | [] => some (none, cs)

/-- A number whose sign has been read. -/
def parseUnsigned (negative : Bool) (cs : List Char) : Option (Json × List Char) := do
  let (whole, rest) ← parseDigits cs
  if whole.head? = some '0' ∧ whole ≠ ['0'] then none
  let (fraction, rest) ← parseFraction rest
  let (exponent, rest) ← parseExponent rest
  if fraction.isNone && exponent.isNone then
    let n : Int := digitsValue whole
    return (integer (if negative then -n else n), rest)
  else
    let places := fraction.getD []
    return (decimal negative (digitsValue (whole ++ places))
      (exponent.getD 0 - places.length), rest)

/-- A number. -/
def parseNumber : List Char → Option (Json × List Char)
  | '-' :: cs => parseUnsigned true cs
  | cs => parseUnsigned false cs

/-- The characters after a literal word. -/
def expect (word : String) (cs : List Char) : Option (List Char) :=
  if word.toList.isPrefixOf cs then some (cs.drop word.length) else none

mutual

/-- A value; `fuel` bounds the productions still to be opened. -/
def parseValue : Nat → List Char → Option (Json × List Char)
  | 0, _ => none
  | fuel + 1, cs =>
    match skipBlanks cs with
    | '[' :: rest =>
      match skipBlanks rest with
      | ']' :: after => some (array [], after)
      | more => (parseItems fuel more).map fun (items, after) => (array items, after)
    | '{' :: rest =>
      match skipBlanks rest with
      | '}' :: after => some (object [], after)
      | more => (parseMembers fuel more).map fun (members, after) => (object members, after)
    | c :: rest =>
      if c = Text.doubleQuote then
        (parseText rest).map fun (s, after) => (text s, after)
      else if c = 'n' then (expect "null" (c :: rest)).map fun after => (null, after)
      else if c = 't' then (expect "true" (c :: rest)).map fun after => (bool true, after)
      else if c = 'f' then (expect "false" (c :: rest)).map fun after => (bool false, after)
      else parseNumber (c :: rest)
    | [] => none

/-- One or more items and the closing bracket. -/
def parseItems : Nat → List Char → Option (List Json × List Char)
  | 0, _ => none
  | fuel + 1, cs => do
    let (x, rest) ← parseValue fuel cs
    match skipBlanks rest with
    | ',' :: more =>
      let (xs, after) ← parseItems fuel more
      return (x :: xs, after)
    | ']' :: after => return ([x], after)
    | _ => none

/-- One or more members and the closing brace. -/
def parseMembers : Nat → List Char → Option (List (String × Json) × List Char)
  | 0, _ => none
  | fuel + 1, cs => do
    match skipBlanks cs with
    | q :: quotedName =>
      if q ≠ Text.doubleQuote then none
      let (name, rest) ← parseText quotedName
      match skipBlanks rest with
      | ':' :: valueChars =>
        let (x, rest) ← parseValue fuel valueChars
        match skipBlanks rest with
        | ',' :: more =>
          let (ms, after) ← parseMembers fuel more
          return ((name, x) :: ms, after)
        | '}' :: after => return ([(name, x)], after)
        | _ => none
      | _ => none
    | [] => none

end

/-- The value that a text spells, blanks around it allowed. -/
def parse (s : String) : Option Json :=
  let cs := s.toList
  match parseValue (2 * cs.length + 1) cs with
  | some (v, rest) => if (skipBlanks rest).isEmpty then some v else none
  | none => none

end RenderTrace.Json
