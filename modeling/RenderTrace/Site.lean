import RenderTrace.Directive

/-!
# Sites

A site is a place in source that refers to a view: a marker of some directive, and
the view its arguments name. Sites are found by plain search for markers, line by
line.
-/

namespace RenderTrace

/-- A reference to a view as written at one place of a source. -/
structure Site where
  /-- The view as the argument names it. -/
  name : String
  /-- The class or template the line belongs to. -/
  file : String
  lineNumber : Int
  /-- The marker found. -/
  directive : String
  /-- The line as it stands, its end included. -/
  line : String
  /-- The argument was one quoted text. -/
  isLiteral : Bool
deriving DecidableEq, Repr, Inhabited

namespace Occurrence

/-- The first position of the marker. -/
def first? (marker : List Char) : List Char → Option Nat
  | [] => if marker.isEmpty then some 0 else none
  | c :: rest =>
    if marker.isPrefixOf (c :: rest) then some 0 else (first? marker rest).map (· + 1)

/-- The positions of the marker, leftmost first and without overlap; `offset` is the position of
the characters given. An empty marker would be found at one place forever and is reported once. -/
def allFrom (marker : List Char) (offset : Nat) (cs : List Char) : List Nat :=
  match first? marker cs with
  | none => []
  | some i =>
    if marker.isEmpty ∨ cs.isEmpty then [offset + i]
    else (offset + i) ::
      allFrom marker (offset + i + marker.length) (cs.drop (i + marker.length))
termination_by cs.length
decreasing_by
  rename_i h
  simp only [List.isEmpty_iff, not_or, List.length_drop] at h ⊢
  have := List.length_pos_iff.mpr h.1
  have := List.length_pos_iff.mpr h.2
  omega

/-- The positions of the marker in a line. -/
def all (marker cs : List Char) : List Nat :=
  allFrom marker 0 cs

end Occurrence

/-- What a search looks for. -/
structure Vocabulary where
  directives : List Directive
  /-- Every occurrence of a marker counts, not only the first of a line. -/
  everyOccurrence : Bool
  /-- When only blanks follow a marker, its arguments are read from the next line. -/
  continuesOnNextLine : Bool
deriving DecidableEq, Repr

namespace Vocabulary

/-- The search for render calls in code. -/
def ofCalls (directives : List Directive) : Vocabulary :=
  ⟨directives, false, true⟩

/-- The search for inclusions in a template. -/
def ofTemplates (directives : List Directive) : Vocabulary :=
  ⟨directives, true, false⟩

/-- The positions at which the search sees a marker in a line. -/
def positions (v : Vocabulary) (marker cs : List Char) : List Nat :=
  if v.everyOccurrence then Occurrence.all marker cs
  else (Occurrence.first? marker cs).toList

/-- The arguments after a marker at the given position, which may continue on the next line. -/
def arguments (v : Vocabulary) (marker cs : List Char) (next? : Option String) (position : Nat) :
    List Char :=
  let tail := Text.trimChars (cs.drop (position + marker.length))
  match next? with
  | some next =>
    if tail.isEmpty && v.continuesOnNextLine then Text.trimChars next.toList else tail
  | none => tail

/-- The sites of one line, by directive and then by position. -/
def lineSites (v : Vocabulary) (file : String) (lineNumber : Int) (line : String)
    (next? : Option String) : List Site :=
  v.directives.flatMap fun d =>
    (v.positions d.marker.toList line.toList).map fun position =>
      let target := d.target (v.arguments d.marker.toList line.toList next? position)
      { name := target.name
        file := file
        lineNumber := lineNumber
        directive := d.marker
        line := line
        isLiteral := target.isLiteral }

/-- The sites of lines, the first of which has the given number. -/
def sites (v : Vocabulary) (file : String) (start : Int) : List String → List Site
  | [] => []
  | line :: rest => v.lineSites file start line rest.head? ++ v.sites file (start + 1) rest

end Vocabulary

end RenderTrace
