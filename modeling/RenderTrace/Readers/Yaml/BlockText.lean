import RenderTrace.Text.Line
import RenderTrace.Readers.Yaml.Plain

/-!
# Block scalars

A block scalar is a header and the deeper indented lines after it. A bar keeps its
line breaks; a greater-than sign folds them as in plain scalars, except next to a
line that begins with a blank. The header may fix the indentation and says what
becomes of the line breaks at the end.
-/

namespace RenderTrace.Yaml

/-- What becomes of the line breaks at the end of a block scalar. -/
inductive Ending where
  /-- All are dropped. -/
  | strip
  /-- One is kept. -/
  | clip
  /-- All are kept. -/
  | keep
deriving DecidableEq, Repr

/-- The header of a block scalar. -/
structure BlockHeader where
  folds : Bool
  ending : Ending := .clip
  /-- How much deeper than its surroundings the text is indented, where the header says so. -/
  deeper : Option Nat := none
deriving DecidableEq, Repr

namespace BlockHeader

/-- The header with what follows its first character, and the characters after it. -/
def read (h : BlockHeader) : List Char → BlockHeader × List Char
  | '-' :: rest => ({ h with ending := .strip } : BlockHeader).read rest
  | '+' :: rest => ({ h with ending := .keep } : BlockHeader).read rest
  | c :: rest =>
    if '1' ≤ c ∧ c ≤ '9' then { h with deeper := some (c.toNat - 0x30) }.read rest
    else (h, c :: rest)
  | [] => (h, [])

/-- The characters after the line of the header, which may hold only a comment besides. -/
def endOfLine? (cs : List Char) : Option (List Char) :=
  match cs.dropWhile isBlank with
  | [] => some []
  | c :: rest =>
    if c = '\n' then some rest
    else if c = '#' ∧ (cs.head?.map isBlank).getD false then
      some ((rest.dropWhile (· != '\n')).drop 1)
    else none

end BlockHeader

/-- The number of spaces that a line begins with. -/
def indentOf (line : List Char) : Nat :=
  (line.takeWhile (· == ' ')).length

/-- A line holds nothing but spaces. -/
def isEmptyLine (line : List Char) : Bool :=
  (line.dropWhile (· == ' ')).isEmpty || line.dropWhile (· == ' ') == ['\n']

/-- The indentation of a block: that of its first line with text, or of a deeper empty line before
it, but at least `floor`. -/
def blockIndent (floor : Nat) : List (List Char) → Nat
  | [] => floor
  | line :: lines =>
    if isEmptyLine line then blockIndent (max floor (indentOf line)) lines
    else max floor (indentOf line)

/-- A line without the indentation of its block; a shorter empty line keeps only its break. -/
def dedent (indent : Nat) (line : List Char) : List Char :=
  if indent ≤ indentOf line then line.drop indent else line.dropWhile (· == ' ')

/-- The text of dedented lines, their breaks folded. `blankStart` says whether the last line with
text began with a blank, and `breaks` counts the line breaks since. -/
def foldLines (blankStart : Option Bool) (breaks : Nat) : List (List Char) → List Char
  | [] => List.replicate breaks '\n'
  | line :: lines =>
    if line = ['\n'] then foldLines blankStart (breaks + 1) lines
    else
      let starts := (line.head?.map isBlank).getD false
      let joint :=
        if blankStart = some false ∧ starts = false then folded breaks
        else List.replicate breaks '\n'
      let ended := if line.contains '\n' then 1 else 0
      joint ++ line.filter (· != '\n') ++ foldLines (some starts) ended lines

/-- A text with the line breaks at its end treated as the ending says. -/
def Ending.apply (ending : Ending) (t : List Char) : List Char :=
  let body := (t.reverse.dropWhile (· == '\n')).reverse
  match ending with
  | strip => body
  | clip => if body.isEmpty then [] else body ++ (t.drop body.length).take 1
  | keep => t

/-- The text of a block scalar whose lines begin the given ones, and the characters after it. -/
def BlockHeader.text (h : BlockHeader) (floor : Nat) (cs : List Char) : List Char × List Char :=
  let lines := Text.charLines cs
  let indent := match h.deeper with
    | some n => (floor - 1) + n
    | none => blockIndent (max floor 1) lines
  let belongs := fun line => indent ≤ indentOf line || isEmptyLine line
  let dedented := (lines.takeWhile belongs).map (dedent indent)
  let t := if h.folds then foldLines none 0 (dedented.filter (!·.isEmpty)) else dedented.flatten
  (h.ending.apply t, (lines.dropWhile belongs).flatten)

/-- The block scalar that begins at a place, and the place after it. -/
def blockText? (floor : Nat) (p : Cursor) : Option (String × Cursor) := do
  let (h, afterHeader) ← match p.rest with
    | '|' :: rest => some (BlockHeader.read { folds := false } rest)
    | '>' :: rest => some (BlockHeader.read { folds := true } rest)
    | _ => none
  let cs ← BlockHeader.endOfLine? afterHeader
  let (t, after) := h.text floor cs
  return (String.ofList t, p.seek after)

end RenderTrace.Yaml
