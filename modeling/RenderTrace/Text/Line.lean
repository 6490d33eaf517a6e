/-!
# Physical lines

A line ends at a line feed and keeps it. Carriage returns, form feeds and the
other characters that break lines elsewhere stay inside their line, so that the
number of a line is one more than the number of line feeds before it.
-/

namespace RenderTrace.Text

/-- The lines of a text, line feeds kept; the last line may lack one, and no line is empty. -/
def charLines : List Char → List (List Char)
  | [] => []
  | c :: rest =>
    if c = '\n' then [c] :: charLines rest
    else match charLines rest with
      | [] => [[c]]
      | line :: lines => (c :: line) :: lines

/-- The lines of a text. -/
def lines (s : String) : List String :=
  (charLines s.toList).map String.ofList

/-- The text with a line feed for every carriage return, and for the line feed after it. -/
def unifyBreaks : List Char → List Char
  | [] => []
  | '\r' :: '\n' :: rest => '\n' :: unifyBreaks rest
  | c :: rest => (if c = '\r' then '\n' else c) :: unifyBreaks rest

theorem return_not_mem_unifyBreaks (cs : List Char) : '\r' ∉ unifyBreaks cs := by
  fun_induction unifyBreaks cs with
  | case1 => simp
  | case2 rest ih => simp [ih]
  | case3 c rest _ ih =>
    by_cases h : c = '\r'
    · simp [h, ih]
    · simpa [h, ih] using fun e => h e.symm

@[simp]
theorem flatten_charLines (cs : List Char) : (charLines cs).flatten = cs := by
  induction cs with
  | nil => rfl
  | cons c rest ih =>
    unfold charLines
    split
    · simp [ih]
    · split
      next h => simpa [h] using ih
      next line lines h => simpa [h] using ih

end RenderTrace.Text
