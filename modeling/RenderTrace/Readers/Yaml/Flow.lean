import RenderTrace.Readers.Yaml.Node
import RenderTrace.Readers.Yaml.Plain

/-!
# Flow collections

A flow collection is a list in brackets or a mapping in braces, free of indentation.
Its parts are parted by commas, of which the last may stand before the closing
mark. In a list, a single entry of a mapping stands for a mapping of its own.
-/

namespace RenderTrace.Yaml

/-- A character of a name of an anchor. -/
def isNameChar (c : Char) : Bool :=
  c.isAlphanum || c == '_' || c == '-'

/-- A name at a place, and the place after it. -/
def name? (p : Cursor) : Option (String × Cursor) :=
  let name := p.rest.takeWhile isNameChar
  if name.isEmpty then none else some (String.ofList name, p.forward name.length)

/-- A character of a tag. -/
def isTagChar (c : Char) : Bool :=
  !(isBlank c || c == '\n' || isFlowMark c)

/-- The mark of an anchor or tag at a place, and the place after it. -/
def property? (p : Cursor) : Option ((Node → Node) × Cursor) :=
  match p.rest with
  | '&' :: _ => (name? p.next).map fun (name, after) => (.anchored name, after)
  | '!' :: _ =>
    let tag := p.rest.takeWhile isTagChar
    some (.tagged (String.ofList tag), p.forward tag.length)
  | _ => none

/-- The alias at a place, and the place after it. -/
def aliasNode? (p : Cursor) : Option (Node × Cursor) :=
  match p.rest with
  | '*' :: _ => (name? p.next).map fun (name, after) => (.aliasOf name, after)
  | _ => none

/-- A scalar with quotes at a place, and the place after it. -/
def quotedNode? (p : Cursor) : Option (Node × Cursor) :=
  (quoted? p).map fun (s, after) => (.text s, after)

/-- A node can end before these characters without having begun. -/
def endsFlowNode : List Char → Bool
  | [] => false
  | ':' :: rest => separates true rest
  | c :: _ => c == ',' || c == ']' || c == '}'

mutual

/-- The node of a flow collection at a place. `fuel` bounds the productions still to be opened. -/
def flowNode? : Nat → Cursor → Option (Node × Cursor)
  | 0, _ => none
  | fuel + 1, p =>
    if p.atEnd then none
    else match p.rest with
      | '[' :: _ => (flowItems? fuel p.next).map fun (items, after) => (.list items, after)
      | '{' :: _ => (flowEntries? fuel p.next).map fun (es, after) => (.mapping es, after)
      | rest =>
        match property? p with
        | some (mark, q) =>
          let q := q.skipGap true
          if endsFlowNode q.rest then some (mark .nothing, q)
          else (flowNode? fuel q).map fun (node, after) => (mark node, after)
        | none =>
          (aliasNode? p).or <| (quotedNode? p).or <|
            if startsPlain true rest then
              (plain? true 0 p).map fun (s, after) => (.plain s, after)
            else none

/-- A node at a place and, after a colon in the same line, its value. -/
def flowEntry? : Nat → Cursor → Option ((Node × Option Node) × Cursor)
  | 0, _ => none
  | fuel + 1, p => do
    let (key, q) ← flowNode? fuel p
    let colon := q.skipGap true
    if colon.rest.head? = some ':' then
      if colon.line ≠ p.line then none
      let r := colon.next.skipGap true
      if endsFlowNode r.rest then return ((key, some .nothing), r)
      let (node, after) ← flowNode? fuel r
      return ((key, some node), after)
    else return ((key, none), q)

/-- The items of a list up to its closing bracket. -/
def flowItems? : Nat → Cursor → Option (List Node × Cursor)
  | 0, _ => none
  | fuel + 1, p => do
    let q := p.skipGap true
    if q.rest.head? = some ']' then return ([], q.next)
    let ((key, node?), r) ← flowEntry? fuel q
    let item := match node? with
      | none => key
      | some node => .mapping [(key, node)]
    let r := r.skipGap true
    match r.rest with
    | ',' :: _ => do
      let (items, after) ← flowItems? fuel r.next
      return (item :: items, after)
    | ']' :: _ => return ([item], r.next)
    | _ => none

/-- The entries of a mapping up to its closing brace. -/
def flowEntries? : Nat → Cursor → Option (List (Node × Node) × Cursor)
  | 0, _ => none
  | fuel + 1, p => do
    let q := p.skipGap true
    if q.rest.head? = some '}' then return ([], q.next)
    let ((key, node?), r) ← flowEntry? fuel q
    let entry := (key, node?.getD .nothing)
    let r := r.skipGap true
    match r.rest with
    | ',' :: _ => do
      let (entries, after) ← flowEntries? fuel r.next
      return (entry :: entries, after)
    | '}' :: _ => return ([entry], r.next)
    | _ => none

end

end RenderTrace.Yaml
