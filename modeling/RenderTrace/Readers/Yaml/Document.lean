import RenderTrace.Readers.Yaml.Block

/-!
# Documents

A text holds at most one document. A line of three dashes may begin it, a line of
three dots may end it, and nothing but gaps may stand outside. Control characters
are refused, and so are directives other than the one for version 1.2.

Settings are loaded with a parser from outside. This one is for running the library
on the documents that settings files hold in practice: merge keys, explicit keys and
time stamps are not read as such, and no theorem rests on it.
-/

namespace RenderTrace.Yaml

/-- A character that a document may hold. -/
def isAllowed (c : Char) : Bool :=
  let n := c.toNat
  c == '\t' || c == '\n' || c == '\r' || (0x20 ≤ n && n ≤ 0x7E) || n == 0x85 ||
    (0xA0 ≤ n && n ≤ 0xFFFD) || 0x10000 ≤ n

/-- The line that says which version of the format a document has. -/
def versionLine : List Char :=
  "%YAML 1.2\n".toList

/-- The place after the directives and the marker that begin a document, if they are well formed. -/
def documentStart? (p : Cursor) : Option Cursor :=
  let first := p.skipGap false
  let directed := versionLine.isPrefixOf first.rest && first.column == 0
  let q := if directed then (first.forward versionLine.length).skipGap false else first
  if q.atMarker && q.rest.head? = some '-' then some (q.forward 3)
  else if directed || q.rest.head? = some '%' then none
  else some q

/-- Nothing but lines of three dots and gaps follows; every round passes one such line. -/
def isOver : Nat → Cursor → Bool
  | 0, p => p.rest.isEmpty
  | rounds + 1, p =>
    let q := p.skipGap false
    if q.atMarker && q.rest.head? = some '.' then
      let line := (q.forward 3).skipGap false
      (line.leading || line.rest.isEmpty) && isOver rounds line
    else q.rest.isEmpty

/-- The node of the document in a text. -/
def document? (cs : List Char) : Option Node := do
  if !cs.all isAllowed then none
  let text := if cs.head? = some (Char.ofNat 0xFEFF) then cs.tail else cs
  let p ← documentStart? (.start text)
  let (node, q) ← blockNode? (4 * text.length + 8) .ofDocument p
  if isOver q.rest.length q then some node else none

/-- The value that a text spells, null if it holds no document. -/
def parse (cs : List Char) : Option Value := do
  let node ← document? cs
  let (v, _) ← node.value? []
  return v

end RenderTrace.Yaml
