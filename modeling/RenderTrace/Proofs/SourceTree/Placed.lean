import Mathlib.Data.List.Basic
import RenderTrace.Proofs.SourceTree.Nodes

/-!
# The places of nodes

A node of a source is listed with the nodes in which it lies and with what stands before
them at the top level. The list follows the source: every node comes before those below
it, and these before the next one.
-/

namespace RenderTrace.SourceTree
open Node

/-- A node of a source with its place. -/
structure Placed where
  /-- The top-level nodes before the one at or below which the node lies. -/
  before : List Node
  /-- The top-level node at or below which the node lies. -/
  top : Node
  /-- The nodes in which the node lies, from the top level down. -/
  outer : List Node
  node : Node

mutual

/-- A node that lies in `outer`, and the nodes below it, each before those below it. -/
def placedAt (before : List Node) (top : Node) (outer : List Node) : Node → List Placed
  | ⟨type, start, stop, row, endRow, isMissing, field, children⟩ =>
    ⟨before, top, outer, ⟨type, start, stop, row, endRow, isMissing, field, children⟩⟩ ::
      placedBelow before top
        (outer ++ [⟨type, start, stop, row, endRow, isMissing, field, children⟩]) children

/-- Several nodes that lie in `outer`, and the nodes below them. -/
def placedBelow (before : List Node) (top : Node) (outer : List Node) : List Node → List Placed
  | [] => []
  | n :: rest => placedAt before top outer n ++ placedBelow before top outer rest

end

/-- The top-level nodes that come after `before`, and the nodes below them. -/
def placedAfter (before : List Node) : List Node → List Placed
  | [] => []
  | n :: rest => placedAt before n [] n ++ placedAfter (before ++ [n]) rest

/-- The nodes below the root of a source, in the order of the source. -/
def placed (root : Node) : List Placed :=
  placedAfter [] root.children

variable {before outer : List Node} {top n : Node} {p : Placed}

theorem placedAt_eq (before : List Node) (top : Node) (outer : List Node) (n : Node) :
    placedAt before top outer n =
      ⟨before, top, outer, n⟩ :: placedBelow before top (outer ++ [n]) n.children := by
  obtain ⟨type, start, stop, row, endRow, isMissing, field, children⟩ := n
  rw [placedAt]

theorem placedBelow_eq_flatMap (before : List Node) (top : Node) (outer trees : List Node) :
    placedBelow before top outer trees = trees.flatMap (placedAt before top outer) := by
  induction trees with
  | nil => rfl
  | cons n rest ih => rw [placedBelow, ih, List.flatMap_cons]

theorem map_node_placedAt (before : List Node) (top : Node) (outer : List Node) (n : Node) :
    (placedAt before top outer n).map (·.node) = n.nodes := by
  induction n using Node.induction generalizing outer with
  | node n below =>
      rw [placedAt_eq, nodes_eq, List.map_cons, placedBelow_eq_flatMap, List.map_flatMap,
        nodesOf_eq_flatMap]
      exact congrArg _ (List.flatMap_congr fun c child => below c child _)

theorem map_node_placedAfter (before trees : List Node) :
    (placedAfter before trees).map (·.node) = nodesOf trees := by
  induction trees generalizing before with
  | nil => rfl
  | cons n rest ih => rw [placedAfter, List.map_append, map_node_placedAt, ih, nodesOf]

/-- What lies at or below a node lies in all that the node lies in. -/
theorem of_mem_placedAt (mem : p ∈ placedAt before top outer n) :
    p.top = top ∧ outer <+: p.outer := by
  induction n using Node.induction generalizing outer with
  | node n below =>
      rw [placedAt_eq, List.mem_cons, placedBelow_eq_flatMap, List.mem_flatMap] at mem
      obtain rfl | ⟨c, child, mem⟩ := mem
      · exact ⟨rfl, List.prefix_rfl⟩
      · obtain ⟨same, inner⟩ := below c child mem
        exact ⟨same, (List.prefix_append outer [n]).trans inner⟩

theorem exists_mem_placedAt {nodes : List Node} (mem : p ∈ placedAfter before nodes) :
    ∃ n ∈ nodes, ∃ earlier, p ∈ placedAt earlier n [] n := by
  induction nodes generalizing before with
  | nil => exact absurd mem List.not_mem_nil
  | cons n rest ih =>
      rcases List.mem_append.mp mem with here | later
      · exact ⟨n, List.mem_cons_self, before, here⟩
      · obtain ⟨m, there, found⟩ := ih later
        exact ⟨m, List.mem_cons_of_mem n there, found⟩

end RenderTrace.SourceTree
