import RenderTrace.Readers.Yaml.Scalar

/-!
# Nodes of a document

A node is what a document writes down: scalars, lists and mappings, with anchors,
aliases and tags. Its value follows each alias to the node that was anchored before
it. A mapping may not hold two keys that are equal; a number is equal to a truth
value when that counts as it.
-/

namespace RenderTrace.Yaml

/-- A node of a document. -/
inductive Node where
  /-- A scalar without quotes; the empty one is left out in the document. -/
  | plain (s : String)
  | text (s : String)
  | list (items : List Node)
  | mapping (entries : List (Node × Node))
  | aliasOf (name : String)
  | anchored (name : String) (node : Node)
  | tagged (tag : String) (node : Node)

/-- A scalar that is left out. -/
def Node.nothing : Node :=
  plain ""

/-- A truth value as the integer it counts as, and a whole float as its integer. -/
def keyNumber : Value → Value
  | .bool b => .int (if b then 1 else 0)
  | .float x =>
    match Decimal.Binary.ofFloat x with
    | .finite negative m e => ((Decimal.Binary.integer? negative m e).map .int).getD (.float x)
    | _ => .float x
  | v => v

/-- Two scalars are equal as keys. -/
def sameKey (a b : Value) : Bool :=
  match keyNumber a, keyNumber b with
  | .null, .null => true
  | .int m, .int n => m == n
  | .float x, .float y => x == y
  | .text s, .text t => s == t
  | _, _ => false

/-- A value may be a key. -/
def isKey : Value → Bool
  | .list _ => false
  | .mapping _ => false
  | _ => true

/-- A mapping of the entries, if their keys differ. -/
def mapping? (entries : List (Value × Value)) : Option Value :=
  let keys := entries.map Prod.fst
  if keys.all isKey && decide (keys.Pairwise fun a b => sameKey a b = false) then
    some (.mapping entries)
  else none

/-- The value of a node under a tag, from the node without its anchor. -/
def taggedValue? (tag : String) (node : Node) (value : Value) : Option Value :=
  let scalar? : Option String := match node with
    | .plain s => some s
    | .text s => some s
    | _ => none
  match tag, scalar?, value with
  | "!", some s, _ => some (.text s)
  | "!", none, v => some v
  | "!!str", some s, _ => some (.text s)
  | "!!null", some _, _ => some .null
  | "!!seq", none, .list items => some (.list items)
  | "!!map", none, .mapping entries => some (.mapping entries)
  | "!!bool", some s, _ => match plainValue s with
    | .bool b => some (.bool b)
    | _ => none
  | "!!int", some s, _ => match plainValue s with
    | .int n => some (.int n)
    | _ => none
  | "!!float", some s, _ => match plainValue s with
    | .float x => some (.float x)
    | .int n => some (.float (Decimal.nearest (decide (n < 0)) n.natAbs 0))
    | _ => none
  | _, _, _ => none

/-- The values of the anchored nodes so far. -/
abbrev Anchors := List (String × Value)

namespace Node

/-- The node without its anchors. -/
def bare : Node → Node
  | anchored _ node => node.bare
  | node => node

mutual

/-- The value of a node and the anchors after it. -/
def value? (anchors : Anchors) : Node → Option (Value × Anchors)
  | plain s => some (plainValue s, anchors)
  | text s => some (.text s, anchors)
  | list items => (values? anchors items).map fun (vs, after) => (.list vs, after)
  | mapping entries => do
    let (es, after) ← entries? anchors entries
    return (← mapping? es, after)
  | aliasOf name => (Keyed.get? name anchors).map fun v => (v, anchors)
  | anchored name node => do
    let (v, after) ← value? anchors node
    return (v, Keyed.put name v after)
  | tagged tag node => do
    let (v, after) ← value? anchors node
    return (← taggedValue? tag node.bare v, after)

/-- The values of nodes, one after another. -/
def values? (anchors : Anchors) : List Node → Option (List Value × Anchors)
  | [] => some ([], anchors)
  | node :: nodes => do
    let (v, after) ← value? anchors node
    let (vs, last) ← values? after nodes
    return (v :: vs, last)

/-- The keys and values of entries, one after another. -/
def entries? (anchors : Anchors) : List (Node × Node) → Option (List (Value × Value) × Anchors)
  | [] => some ([], anchors)
  | (key, node) :: entries => do
    let (k, afterKey) ← value? anchors key
    let (v, after) ← value? afterKey node
    let (es, last) ← entries? after entries
    return ((k, v) :: es, last)

end

end Node

end RenderTrace.Yaml
