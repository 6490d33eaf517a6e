import RenderTrace.Readers.Yaml.Quoted

/-!
# Plain scalars

A plain scalar has no quotes. It ends before a colon that ends a word, before a
comment, and in a flow collection before the collection's own marks. It goes on in
the next lines as long as these are indented deeply enough.
-/

namespace RenderTrace.Yaml

/-- A mark of flow collections. -/
def isFlowMark (c : Char) : Bool :=
  c == ',' || c == '[' || c == ']' || c == '{' || c == '}'

/-- A character with a meaning of its own at the start of a scalar. -/
def isIndicator (c : Char) : Bool :=
  isFlowMark c || ['-', '?', ':', '#', '&', '*', '!', '|', '>', '\'', Text.doubleQuote, '%', '@',
    '\x60'].contains c

/-- A colon that has these characters after it separates a key from its value. -/
def separates (inFlow : Bool) (rest : List Char) : Bool :=
  endsWord rest || (inFlow && (rest.head?.map isFlowMark).getD false)

/-- A plain scalar begins with these characters. -/
def startsPlain (inFlow : Bool) : List Char → Bool
  | [] => false
  | c :: rest =>
    if isBlank c || c == '\n' then false
    else if isIndicator c then
      (c == '-' && !endsWord rest) || (!inFlow && (c == '?' || c == ':') && !endsWord rest)
    else true

/-- The part of a plain scalar in one line, its trailing blanks included, and what follows. -/
def plainLine (inFlow afterBlank : Bool) : List Char → List Char × List Char
  | [] => ([], [])
  | c :: rest =>
    if c = '\n' || (c == '#' && afterBlank) || (c == ':' && separates inFlow rest)
        || (inFlow && isFlowMark c) then
      ([], c :: rest)
    else
      let (t, after) := plainLine inFlow (isBlank c) rest
      (c :: t, after)

/-- A line is cut and nothing of it is lost. -/
theorem plainLine_append (inFlow afterBlank : Bool) (cs : List Char) :
    (plainLine inFlow afterBlank cs).1 ++ (plainLine inFlow afterBlank cs).2 = cs := by
  induction cs generalizing afterBlank with
  | nil => rfl
  | cons c rest ih =>
    unfold plainLine
    split
    · rfl
    · simp [ih]

/-- Characters without the blanks at their end. -/
def trimBlanks (cs : List Char) : List Char :=
  (cs.reverse.dropWhile isBlank).reverse

/-- The number of line breaks before the next word, and the characters up to it. A tab in front of
the column where lines have to begin is not passed over. -/
def breaksAhead (inFlow : Bool) (floor column : Nat) : List Char → Nat × Nat
  | [] => (0, 0)
  | c :: rest =>
    if c = '\n' then
      let (breaks, length) := breaksAhead inFlow floor 0 rest
      (breaks + 1, length + 1)
    else if c = ' ' ∨ (c = '\t' ∧ (inFlow ∨ floor ≤ column)) then
      let (breaks, length) := breaksAhead inFlow floor (column + 1) rest
      (breaks, length + 1)
    else (0, 0)

/-- The text that the given number of line breaks between words stands for. -/
def folded (breaks : Nat) : List Char :=
  (Joint.breaks false (breaks - 1)).text

/-- The rest of a plain scalar after one of its lines. `fuel` bounds the lines; lines of a block
have to begin at column `floor` or later. -/
def plainRest (inFlow : Bool) (floor : Nat) : Nat → Cursor → List Char × Cursor
  | 0, p => ([], p)
  | fuel + 1, p =>
    let (breaks, length) := breaksAhead inFlow floor p.column p.rest
    let q := p.forward length
    let (line, _) := plainLine inFlow true q.rest
    if breaks = 0 || q.atEnd || (!inFlow && decide (q.column < floor)) || line.isEmpty then ([], p)
    else
      let (t, after) := plainRest inFlow floor fuel (q.forward line.length)
      (folded breaks ++ trimBlanks line ++ t, after)

/-- The plain scalar of one line that begins at a place, and the place after it. -/
def plainWord? (inFlow : Bool) (p : Cursor) : Option (String × Cursor) :=
  if startsPlain inFlow p.rest then
    let (line, _) := plainLine inFlow false p.rest
    some (String.ofList (trimBlanks line), p.forward line.length)
  else none

/-- The plain scalar that begins at a place, over all its lines, and the place after it. -/
def plain? (inFlow : Bool) (floor : Nat) (p : Cursor) : Option (String × Cursor) := do
  let (first, q) ← plainWord? inFlow p
  let (more, after) := plainRest inFlow floor q.rest.length q
  return (first ++ String.ofList more, after)

end RenderTrace.Yaml
