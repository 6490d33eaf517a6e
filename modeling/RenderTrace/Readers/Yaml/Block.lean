import RenderTrace.Readers.Yaml.BlockText
import RenderTrace.Readers.Yaml.Flow

/-!
# Block collections

A block collection takes its extent from the indentation of its lines: each of its
parts begins a line at the column of the first one. A list may stand at the column of
the key that it belongs to. What stands deeper or less deep than the parts is left to
the collections around.
-/

namespace RenderTrace.Yaml

/-- The key at a place with its anchor and tag, which has to fit in one line. -/
def keyNode? : Nat → Cursor → Option (Node × Cursor)
  | 0, _ => none
  | fuel + 1, p =>
    match property? p with
    | some (mark, q) => (keyNode? fuel q.skipBlanks).map fun (node, after) => (mark node, after)
    | none =>
      (aliasNode? p).or <| (quotedNode? p).or <|
        (plainWord? false p).map fun (s, after) => (.plain s, after)

/-- The key at a place, and the place after its colon. -/
def key? (p : Cursor) : Option (Node × Cursor) := do
  let (key, q) ← keyNode? (p.rest.length + 1) p
  let colon := q.skipBlanks
  match colon.rest with
  | ':' :: rest => if colon.line = p.line ∧ endsWord rest then some (key, colon.next) else none
  | _ => none

/-- Where a node may stand in a block. -/
structure Place where
  /-- The first column a line of the node may begin at. -/
  floor : Nat
  /-- The first column a list may begin at. -/
  listFloor : Nat
  /-- A collection may begin in the line that the place is in. -/
  inLine : Bool
deriving DecidableEq, Repr

namespace Place

/-- The place of the value of a key that begins at a column. -/
def ofKey (column : Nat) : Place :=
  ⟨column + 1, column, false⟩

/-- The place of an item whose dash is at a column. -/
def ofItem (column : Nat) : Place :=
  ⟨column + 1, column + 1, true⟩

/-- The place of the node of a document. -/
def ofDocument : Place :=
  ⟨0, 0, false⟩

/-- The place after an anchor or a tag. -/
def afterMark (place : Place) : Place :=
  { place with inLine := false }

/-- A node that begins here belongs to the place. -/
def holds (place : Place) (p : Cursor) : Bool :=
  !p.leading || decide ((if p.atDash then place.listFloor else place.floor) ≤ p.column)

/-- A block collection may begin here. -/
def takesCollection (place : Place) (p : Cursor) : Bool :=
  p.leading || place.inLine

end Place

/-- A scalar, an alias or a flow collection at a place. -/
def inlineNode? (fuel floor : Nat) (p : Cursor) : Option (Node × Cursor) :=
  match p.rest with
  | '[' :: _ => flowNode? fuel p
  | '{' :: _ => flowNode? fuel p
  | '|' :: _ => (blockText? floor p).map fun (s, after) => (.text s, after)
  | '>' :: _ => (blockText? floor p).map fun (s, after) => (.text s, after)
  | _ =>
    (aliasNode? p).or <| (quotedNode? p).or <|
      (plain? false floor p).map fun (s, after) => (.plain s, after)

mutual

/-- The node of a block after a place. `fuel` bounds the productions still to be opened. -/
def blockNode? : Nat → Place → Cursor → Option (Node × Cursor)
  | 0, _, _ => none
  | fuel + 1, place, p =>
    let q := p.skipGap false
    if q.atEnd || !place.holds q then some (.nothing, q)
    else if q.atDash then
      if place.takesCollection q then
        (blockItems? fuel q).map fun (items, after) => (.list items, after)
      else none
    else if place.takesCollection q && (key? q).isSome then
      (blockEntries? fuel q).map fun (entries, after) => (.mapping entries, after)
    else match property? q with
      | some (mark, r) =>
        (blockNode? fuel place.afterMark r).map fun (node, after) => (mark node, after)
      | none => inlineNode? fuel place.floor q

/-- The items of a list, the first of which begins here. -/
def blockItems? : Nat → Cursor → Option (List Node × Cursor)
  | 0, _ => none
  | fuel + 1, p => do
    let (item, q) ← blockNode? fuel (.ofItem p.column) p.next
    let q := q.skipGap false
    if !q.atEnd && q.leading && q.column == p.column && q.atDash then
      let (items, after) ← blockItems? fuel q
      return (item :: items, after)
    else return ([item], q)

/-- The entries of a mapping, the first of which begins here. -/
def blockEntries? : Nat → Cursor → Option (List (Node × Node) × Cursor)
  | 0, _ => none
  | fuel + 1, p => do
    let (key, q) ← key? p
    let (node, r) ← blockNode? fuel (.ofKey p.column) q
    let r := r.skipGap false
    if !r.atEnd && r.leading && r.column == p.column then
      let (entries, after) ← blockEntries? fuel r
      return ((key, node) :: entries, after)
    else return ([(key, node)], r)

end

end RenderTrace.Yaml
