import RenderTrace.SourceTree

/-!
# The nodes of a tree

What is said of all nodes of a tree is said of its root and of the trees below it.
-/

namespace RenderTrace.SourceTree.Node

/-- What holds of a node whenever it holds of its children holds of every node. -/
@[elab_as_elim]
theorem induction {motive : Node → Prop}
    (node : ∀ n : Node, (∀ c ∈ n.children, motive c) → motive n) (n : Node) : motive n :=
  @Node.rec motive (fun nodes => ∀ c ∈ nodes, motive c)
    (fun type start stop row endRow isMissing field children below =>
      node ⟨type, start, stop, row, endRow, isMissing, field, children⟩ below)
    (fun _ mem => absurd mem List.not_mem_nil)
    (fun _ _ first rest => List.forall_mem_cons.mpr ⟨first, rest⟩) n

mutual

/-- A node and all nodes below it, each before those below it. -/
def nodes : Node → List Node
  | ⟨type, start, stop, row, endRow, isMissing, field, children⟩ =>
    ⟨type, start, stop, row, endRow, isMissing, field, children⟩ :: nodesOf children

/-- Several nodes and all nodes below them. -/
def nodesOf : List Node → List Node
  | [] => []
  | n :: rest => nodes n ++ nodesOf rest

end

theorem nodesOf_eq_flatMap (trees : List Node) : nodesOf trees = trees.flatMap nodes := by
  induction trees with
  | nil => rfl
  | cons n rest ih => rw [nodesOf, ih, List.flatMap_cons]

theorem mem_nodesOf {m : Node} {trees : List Node} :
    m ∈ nodesOf trees ↔ ∃ n ∈ trees, m ∈ n.nodes := by
  rw [nodesOf_eq_flatMap, List.mem_flatMap]

theorem nodes_eq (n : Node) : n.nodes = n :: nodesOf n.children := by
  obtain ⟨type, start, stop, row, endRow, isMissing, field, children⟩ := n
  rw [nodes]

theorem mem_nodes {m n : Node} : m ∈ n.nodes ↔ m = n ∨ m ∈ nodesOf n.children := by
  rw [nodes_eq, List.mem_cons]

theorem self_mem_nodes (n : Node) : n ∈ n.nodes :=
  mem_nodes.mpr (.inl rfl)

theorem mem_nodesOf_of_mem {n : Node} {trees : List Node} (mem : n ∈ trees) : n ∈ nodesOf trees :=
  mem_nodesOf.mpr ⟨n, mem, n.self_mem_nodes⟩

/-- What lies below a node of a tree lies in the tree. -/
theorem nodes_subset {n root : Node} (mem : n ∈ root.nodes) : n.nodes ⊆ root.nodes := by
  induction root using induction with
  | node root below =>
      obtain rfl | mem := mem_nodes.mp mem
      · exact List.Subset.refl _
      · obtain ⟨c, child, mem⟩ := mem_nodesOf.mp mem
        intro m inner
        exact mem_nodes.mpr (.inr (mem_nodesOf.mpr ⟨c, child, below c child mem inner⟩))

/-- The children of the nodes of trees lie in the trees. -/
theorem mem_nodesOf_of_child {c n : Node} {trees : List Node} (child : c ∈ n.children)
    (mem : n ∈ nodesOf trees) : c ∈ nodesOf trees := by
  obtain ⟨tree, there, mem⟩ := mem_nodesOf.mp mem
  have inner : c ∈ n.nodes := mem_nodes.mpr (.inr (mem_nodesOf_of_mem child))
  exact mem_nodesOf.mpr ⟨tree, there, nodes_subset mem inner⟩

end RenderTrace.SourceTree.Node
