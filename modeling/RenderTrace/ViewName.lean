import RenderTrace.Text.Blank

/-!
# View names

A view is named by segments joined with dots or slashes, which mean the same. A
hint before the first double colon names a namespace of views and is kept as it
is written.
-/

namespace RenderTrace.ViewName

/-- A name cut at its first double colon: the hint and the rest. -/
def splitHint : List Char → Option (List Char × List Char)
  | [] => none
  | ':' :: ':' :: rest => some ([], rest)
  | c :: rest => (splitHint rest).map fun (hint, view) => (c :: hint, view)

/-- Writes dots for slashes. -/
def withDots (cs : List Char) : List Char :=
  cs.map fun c => if c = '/' then '.' else c

/-- Writes slashes for dots. -/
def withSlashes (cs : List Char) : List Char :=
  cs.map fun c => if c = '.' then '/' else c

/-- The characters of the normal form. -/
def normalChars (cs : List Char) : List Char :=
  match splitHint (Text.trimChars cs) with
  | none => withDots (Text.trimChars cs)
  | some (hint, view) => hint ++ ':' :: ':' :: withDots view

/-- The normal form of a name: no blanks around it, and dots between segments. -/
def normal (name : String) : String :=
  String.ofList (normalChars name.toList)

end RenderTrace.ViewName
