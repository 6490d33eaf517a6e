/-!
# Places in a document

A place knows the characters after it and where it lies in its line. Columns count
characters. Between the tokens of a document stand gaps: spaces, line breaks and
comments, and tabs where they do not indent.
-/

namespace RenderTrace.Yaml

/-- A space or a tab. -/
def isBlank (c : Char) : Bool :=
  c == ' ' || c == '\t'

/-- What follows a word that has ended: nothing, a blank or a line break. -/
def endsWord : List Char → Bool
  | [] => true
  | c :: _ => isBlank c || c == '\n'

/-- A marker that begins or ends a document, as the first word of a line. -/
def startsMarker : List Char → Bool
  | '-' :: '-' :: '-' :: rest => endsWord rest
  | '.' :: '.' :: '.' :: rest => endsWord rest
  | _ => false

/-- A place in a document. -/
structure Cursor where
  rest : List Char
  line : Nat
  column : Nat
  /-- Nothing but spaces stands before the place in its line. -/
  leading : Bool
deriving DecidableEq, Repr

namespace Cursor

/-- The place before the first character. -/
def start (cs : List Char) : Cursor :=
  ⟨cs, 0, 0, true⟩

/-- The place after one more character. -/
def next (p : Cursor) : Cursor :=
  match p.rest with
  | [] => p
  | c :: rest =>
    if c = '\n' then ⟨rest, p.line + 1, 0, true⟩
    else ⟨rest, p.line, p.column + 1, p.leading && c == ' '⟩

/-- The place after `n` more characters. -/
def forward : Nat → Cursor → Cursor
  | 0, p => p
  | n + 1, p => forward n p.next

/-- The later place that has the given characters after it. -/
def seek (p : Cursor) (rest : List Char) : Cursor :=
  forward (p.rest.length - rest.length) p

/-- The place stands before a marker. -/
def atMarker (p : Cursor) : Bool :=
  p.column == 0 && startsMarker p.rest

/-- No more of the document follows. -/
def atEnd (p : Cursor) : Bool :=
  p.rest.isEmpty || p.atMarker

/-- The place stands before a dash that begins an item of a list. -/
def atDash (p : Cursor) : Bool :=
  match p.rest with
  | '-' :: rest => endsWord rest
  | _ => false

end Cursor

/-- The number of characters in a gap. A comment runs to the end of its line, and a tab
belongs to the gap unless it would indent a line of a block. -/
def gapLength (inFlow leading inComment : Bool) : List Char → Nat
  | [] => 0
  | c :: rest =>
    if c = '\n' then gapLength inFlow true false rest + 1
    else if inComment || c == ' ' || (c == '\t' && (inFlow || !leading)) then
      gapLength inFlow leading inComment rest + 1
    else if c = '#' then gapLength inFlow leading true rest + 1
    else 0

/-- The place after the gap. -/
def Cursor.skipGap (p : Cursor) (inFlow : Bool) : Cursor :=
  p.forward (gapLength inFlow p.leading false p.rest)

/-- The place after blanks of the same line. -/
def Cursor.skipBlanks (p : Cursor) : Cursor :=
  p.seek (p.rest.dropWhile isBlank)

@[simp]
theorem Cursor.rest_next (p : Cursor) : p.next.rest = p.rest.tail := by
  unfold Cursor.next
  split
  next h => simp [h]
  next h => split <;> simp [h]

@[simp]
theorem Cursor.rest_forward (n : Nat) (p : Cursor) : (forward n p).rest = p.rest.drop n := by
  induction n generalizing p with
  | zero => rfl
  | succ n ih => simp [forward, ih, List.drop_tail]

end RenderTrace.Yaml
