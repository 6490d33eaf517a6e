import RenderTrace.Text.Utf8
import RenderTrace.Token.Classify

/-!
# Source trees

The syntax tree of a source. A node covers a range of the source's bytes and knows
the rows it begins and ends on. Flattening a tree gives its leaves as tokens; some
nodes are taken whole although they have parts.
-/

namespace RenderTrace.SourceTree

/-- A node of a syntax tree; rows count from zero. -/
structure Node where
  type : String
  start : Nat
  stop : Nat
  row : Nat
  endRow : Nat
  /-- The node was put in by error recovery and stands for no text. -/
  isMissing : Bool
  /-- The role of the node in its parent. -/
  field : Option String
  children : List Node
deriving Inhabited

/-- The bytes of a source. -/
abbrev Source := Array UInt8

/-- The bytes of a text. -/
def Source.ofText (s : String) : Source :=
  (Text.Utf8.encode s).toArray

namespace Node

/-- A node over children, from the first to the last of them. -/
def ofChildren (type : String) (field : Option String) (children : List Node) : Node :=
  match children.head?, children.getLast? with
  | some first, some last =>
    ⟨type, first.start, last.stop, first.row, last.endRow, false, field, children⟩
  | _, _ => ⟨type, 0, 0, 0, 0, false, field, children⟩

/-- Node types taken as one token. -/
def atomicTypes : List String :=
  ["variable_name", "qualified_name", "string", "encapsed_string", "heredoc", "nowdoc", "integer",
    "float", "comment"]

/-- The node gives one token, if it has any text. -/
def isLeaf (n : Node) : Bool :=
  n.children.isEmpty || atomicTypes.contains n.type

/-- The bytes from one offset to another; offsets past the end count as the end. -/
def slice (source : Source) (start stop : Nat) : Source :=
  source.extract start stop

theorem toList_slice (source : Source) (start stop : Nat) :
    (slice source start stop).toList = (source.toList.take stop).drop start := by
  simp [slice, List.extract_eq_take_drop, List.drop_take]

/-- The text of a node. -/
def text (source : Source) (n : Node) : String :=
  Text.Utf8.decodeLenient (slice source n.start n.stop).toList

/-- The token of a leaf, unless its text is empty. -/
def token? (source : Source) (n : Node) : Option Token :=
  let text := n.text source
  if text.isEmpty then none else some ⟨Token.Kind.ofText n.type text, text, n.row + 1⟩

/-- The first child of the given role. -/
def child? (role : String) (n : Node) : Option Node :=
  n.children.find? fun c => c.field == some role

mutual

/-- The number of nodes of a tree. -/
def size : Node → Nat
  | ⟨_, _, _, _, _, _, _, children⟩ => 1 + sizes children

/-- The number of nodes of several trees. -/
def sizes : List Node → Nat
  | [] => 0
  | n :: rest => size n + sizes rest

end

@[simp]
theorem sizes_append (a b : List Node) : sizes (a ++ b) = sizes a + sizes b := by
  induction a with
  | nil => simp [sizes]
  | cons n rest ih => simp [sizes, ih, Nat.add_assoc]

theorem size_eq (n : Node) : n.size = 1 + sizes n.children := by
  cases n; simp [size]

end Node

open Node

/-- The tokens of a stack of nodes, top first. -/
def tokensFrom (source : Source) : List Node → List Token
  | [] => []
  | n :: pending =>
    if n.isMissing then tokensFrom source pending
    else if n.isLeaf then (n.token? source).toList ++ tokensFrom source pending
    else tokensFrom source (n.children ++ pending)
termination_by pending => sizes pending
decreasing_by
  all_goals
    simp only [sizes, size_eq, sizes_append]
    omega

/-- The tokens of a tree in source order. -/
def tokens (source : Source) (root : Node) : List Token :=
  tokensFrom source [root]

mutual

/-- The leaves of a tree from left to right, missing nodes left out with all below them. -/
def leaves : Node → List Node
  | ⟨type, start, stop, row, endRow, isMissing, field, children⟩ =>
    if isMissing then []
    else if Node.isLeaf ⟨type, start, stop, row, endRow, isMissing, field, children⟩ then
      [⟨type, start, stop, row, endRow, isMissing, field, children⟩]
    else leavesOf children

/-- The leaves of several trees. -/
def leavesOf : List Node → List Node
  | [] => []
  | n :: rest => leaves n ++ leavesOf rest

end

end RenderTrace.SourceTree
