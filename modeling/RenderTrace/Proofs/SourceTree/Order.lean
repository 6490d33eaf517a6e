import Mathlib.Data.List.Forall2
import RenderTrace.Proofs.SourceTree
import RenderTrace.Proofs.SourceTree.Nodes

/-!
# Leaves in source order

The stack that flattens a tree visits its leaves as the recursion from left to right does, so
nodes put in by error recovery beside other children leave no trace, and where every node
holds its children one behind another, so do the tokens: their ranges come one behind
another, and each token is read from its own range.
-/

namespace RenderTrace.SourceTree
open Node

theorem decodeLenient_eq_empty_iff {bytes : List UInt8} :
    Text.Utf8.decodeLenient bytes = "" ↔ bytes = [] := by
  rw [Text.Utf8.decodeLenient, String.ofList_eq_empty_iff, List.map_eq_nil_iff]
  cases bytes with
  | nil => simp [Text.Utf8.read]
  | cons b rest => rw [Text.Utf8.read]; simp

/-- A leaf gives no token exactly when its range holds no bytes. -/
theorem Node.token?_eq_none_iff {source : Source} {n : Node} :
    n.token? source = none ↔ slice source n.start n.stop = #[] := by
  rw [Node.token?, ite_eq_left_iff, ← Array.toList_eq_nil_iff, ← decodeLenient_eq_empty_iff,
    String.isEmpty_iff]
  simp [Node.text]

/-! ## Missing nodes -/

/-- The node with other children. -/
def Node.withChildren (n : Node) (children : List Node) : Node :=
  { n with children := children }

/-- The second trees are the first with missing nodes put in between: anywhere among them, and below
nodes with children anywhere among these. -/
inductive AddsMissing : List Node → List Node → Prop
  | nil : AddsMissing [] []
  | added {a b : List Node} {n : Node} (missing : n.isMissing) (rest : AddsMissing a b) :
      AddsMissing a (n :: b)
  | kept {a b : List Node} (n : Node) (rest : AddsMissing a b) : AddsMissing (n :: a) (n :: b)
  | inner {a b children : List Node} {n : Node} (nonempty : n.children ≠ [])
      (inside : AddsMissing n.children children) (rest : AddsMissing a b) :
      AddsMissing (n :: a) (n.withChildren children :: b)

theorem AddsMissing.ne_nil {a b : List Node} (adds : AddsMissing a b) (nonempty : a ≠ []) :
    b ≠ [] := by
  cases adds with
  | nil => exact nonempty
  | added => exact List.cons_ne_nil _ _
  | kept => exact List.cons_ne_nil _ _
  | inner => exact List.cons_ne_nil _ _

variable {source : Source}

/-- A node keeps its tokens when its children are others with the same tokens. -/
theorem filterMap_leaves_withChildren {n : Node} {children : List Node} (before : n.children ≠ [])
    (after : children ≠ [])
    (same : (leavesOf children).filterMap (Node.token? source) =
      (leavesOf n.children).filterMap (Node.token? source)) :
    (leaves (n.withChildren children)).filterMap (Node.token? source) =
      (leaves n).filterMap (Node.token? source) := by
  have leaf : (n.withChildren children).isLeaf = n.isLeaf := by
    simp only [isLeaf, withChildren, List.isEmpty_eq_false_iff.mpr before,
      List.isEmpty_eq_false_iff.mpr after]
  rw [leaves_eq, leaves_eq n, leaf]
  change (if n.isMissing then [] else if n.isLeaf then [n.withChildren children]
    else leavesOf children).filterMap (Node.token? source) = _
  split
  · rfl
  · -- An atomic node keeps its type, its range and its row, so its token stays.
    split
    · rfl
    · exact same

theorem AddsMissing.filterMap_leavesOf {a b : List Node} (adds : AddsMissing a b) :
    (leavesOf b).filterMap (Node.token? source) = (leavesOf a).filterMap (Node.token? source) := by
  induction adds with
  | nil => rfl
  | added missing _ ih => rw [leavesOf, leaves_of_isMissing missing, List.nil_append, ih]
  | kept n _ ih => rw [leavesOf, leavesOf, List.filterMap_append, List.filterMap_append, ih]
  | inner nonempty inside _ same ih =>
      rw [leavesOf, leavesOf, List.filterMap_append, List.filterMap_append, ih,
        filterMap_leaves_withChildren nonempty (inside.ne_nil nonempty) same]

/-! ## Ranges -/

/-- The children of a node lie in its range, one behind another. -/
structure Node.HoldsChildren (n : Node) : Prop where
  within : ∀ c ∈ n.children, n.start ≤ c.start ∧ c.stop ≤ n.stop
  ordered : n.children.Pairwise fun a b => a.stop ≤ b.start

instance (n : Node) : Decidable n.HoldsChildren :=
  decidable_of_iff
    ((∀ c ∈ n.children, n.start ≤ c.start ∧ c.stop ≤ n.stop) ∧
      n.children.Pairwise fun a b => a.stop ≤ b.start)
    ⟨fun ⟨within, ordered⟩ => ⟨within, ordered⟩, fun ⟨within, ordered⟩ => ⟨within, ordered⟩⟩

theorem leavesOf_eq_flatMap (trees : List Node) : leavesOf trees = trees.flatMap leaves := by
  induction trees with
  | nil => rfl
  | cons n rest ih => rw [leavesOf, ih, List.flatMap_cons]

/-- The leaves of a tree lie in the range of its root, one behind another. -/
theorem leaves_ordered {root : Node} (holds : ∀ n ∈ root.nodes, n.HoldsChildren) :
    (∀ n ∈ leaves root, root.start ≤ n.start ∧ n.stop ≤ root.stop) ∧
      (leaves root).Pairwise fun a b => a.stop ≤ b.start := by
  induction root using Node.induction with
  | node root ih =>
      cases missing : root.isMissing with
      | true =>
          rw [leaves_of_isMissing missing]
          exact ⟨fun _ mem => absurd mem List.not_mem_nil, List.Pairwise.nil⟩
      | false =>
          cases leaf : root.isLeaf with
          | true =>
              rw [leaves_of_isLeaf missing leaf]
              refine ⟨?_, List.pairwise_singleton _ _⟩
              intro n mem
              rw [List.mem_singleton.mp mem]
              exact ⟨Nat.le_refl _, Nat.le_refl _⟩
          | false =>
              have below : ∀ c ∈ root.children, ∀ n ∈ c.nodes, n.HoldsChildren := by
                intro c child n mem
                exact holds n (mem_nodes.mpr (.inr (mem_nodesOf.mpr ⟨c, child, mem⟩)))
              obtain ⟨within, ordered⟩ := holds root root.self_mem_nodes
              rw [leaves_of_inner missing leaf, leavesOf_eq_flatMap]
              constructor
              · intro n mem
                obtain ⟨c, child, mem⟩ := List.mem_flatMap.mp mem
                have inner := (ih c child (below c child)).1 n mem
                have outer := within c child
                omega
              · rw [List.pairwise_flatMap]
                refine ⟨fun c child => (ih c child (below c child)).2, ?_⟩
                apply ordered.imp_of_mem
                intro c d left right before a inLeft b inRight
                have first := (ih c left (below c left)).1 a inLeft
                have second := (ih d right (below d right)).1 b inRight
                omega

/-- The token is read from the range of the node, which holds some bytes. -/
structure Node.Gives (source : Source) (n : Node) (t : Token) : Prop where
  nonempty : n.start < n.stop
  within : n.start < source.size
  text : t.text = Text.Utf8.decodeLenient (slice source n.start n.stop).toList
  kind : t.kind = Token.Kind.ofText n.type t.text
  line : t.line = n.row + 1

theorem Node.gives_of_token? {source : Source} {n : Node} {t : Token}
    (token : n.token? source = some t) : n.Gives source t := by
  have some_bytes : slice source n.start n.stop ≠ #[] := by
    intro empty
    rw [token?_eq_none_iff.mpr empty] at token
    exact absurd token nofun
  have size : 0 < (slice source n.start n.stop).size := Array.size_pos_iff.mpr some_bytes
  rw [slice, Array.size_extract] at size
  rw [Node.token?] at token
  split at token
  · exact absurd token nofun
  · obtain rfl := Option.some.inj token
    exact ⟨by omega, by omega, rfl, rfl, rfl⟩

theorem forall₂_filter_filterMap {α β : Type} (f : α → Option β) (as : List α) :
    List.Forall₂ (fun a b => f a = some b) (as.filter fun a => (f a).isSome) (as.filterMap f) := by
  induction as with
  | nil => exact .nil
  | cons a as ih =>
      cases result : f a with
      | none => simpa [result] using ih
      | some b =>
          rw [List.filterMap_cons_some result, List.filter_cons_of_pos (by rw [result]; rfl)]
          exact .cons result ih

/-- The stack gives the tokens of the leaves from left to right; a leaf without bytes gives none.
Missing nodes among the children of nodes that have some change nothing. When every node of the tree
holds its children one behind another, the ranges of the tokens come one behind another and none is
empty, and each token is read from its own range. -/
theorem tokens_ordered (source : Source) (root : Node) :
    tokens source root = (leaves root).filterMap (Node.token? source) ∧
    (∀ n : Node, n.token? source = none ↔ slice source n.start n.stop = #[]) ∧
    (∀ children, root.children ≠ [] → AddsMissing root.children children →
      tokens source (root.withChildren children) = tokens source root) ∧
    ((∀ n ∈ root.nodes, n.HoldsChildren) →
      ∃ places, places.Sublist (leaves root) ∧
        List.Forall₂ (Node.Gives source) places (tokens source root) ∧
        places.Pairwise fun a b => a.stop ≤ b.start) := by
  have flat (n : Node) : tokens source n = (leaves n).filterMap (Node.token? source) := by
    rw [tokens, tokensFrom_eq_filterMap_leavesOf, leavesOf, leavesOf, List.append_nil]
  refine ⟨flat root, fun n => token?_eq_none_iff, ?_, ?_⟩
  · intro children nonempty adds
    rw [flat, flat, filterMap_leaves_withChildren nonempty (adds.ne_nil nonempty)
      adds.filterMap_leavesOf]
  · intro holds
    have kept : ((leaves root).filter fun n => (n.token? source).isSome).Sublist (leaves root) :=
      List.filter_sublist
    refine ⟨_, kept, ?_, (leaves_ordered holds).2.sublist kept⟩
    rw [flat root]
    have paired := forall₂_filter_filterMap (Node.token? source) (leaves root)
    exact paired.imp fun n t => gives_of_token?

/-- A leaf of a text of one line. -/
def leafAt (type : String) (start stop : Nat) (isMissing : Bool) : Node :=
  ⟨type, start, stop, 0, 0, isMissing, none, []⟩

/-- The parts of a quoted text. -/
def quotedParts : List Node :=
  [leafAt "'" 2 3 false, leafAt "string_content" 3 4 false, leafAt "'" 4 5 false]

/-- A quoted text between two names, with a node without bytes and a missing node. -/
def quotedNodes : List Node :=
  [leafAt "name" 0 1 false, ⟨"string", 2, 5, 0, 0, false, none, quotedParts⟩,
    leafAt "name" 5 5 false, leafAt ";" 5 5 true, leafAt "name" 6 7 false]

theorem tokens_ordered_quotedNodes :
    let source := Source.ofText "a 'b' c"
    let root : Node := ⟨"program", 0, 7, 0, 0, false, none, quotedNodes⟩
    let more := [leafAt "name" 0 1 false,
      ⟨"string", 2, 5, 0, 0, false, none, leafAt ")" 9 1 true :: quotedParts⟩,
      leafAt "(" 8 8 true, leafAt "name" 5 5 false, leafAt ";" 5 5 true, leafAt "name" 6 7 false]
    AddsMissing quotedNodes more ∧
      tokens source (root.withChildren more) = tokens source root ∧
      (tokens source root).map (·.text) = ["a", "'b'", "c"] ∧
      (∀ n ∈ root.nodes, n.HoldsChildren) ∧
      ∃ places, places.Sublist (leaves root) ∧
        List.Forall₂ (Node.Gives source) places (tokens source root) ∧
        places.Pairwise fun a b => a.stop ≤ b.start := by
  intro source root more
  have quoted : AddsMissing quotedParts (leafAt ")" 9 1 true :: quotedParts) :=
    .added rfl (.kept _ (.kept _ (.kept _ .nil)))
  have adds : AddsMissing quotedNodes more :=
    .kept _ (.inner (List.cons_ne_nil _ _) quoted
      (.added rfl (.kept _ (.kept _ (.kept _ .nil)))))
  have holds : ∀ n ∈ root.nodes, n.HoldsChildren := by decide +kernel
  obtain ⟨-, -, same, ordered⟩ := tokens_ordered source root
  exact ⟨adds, same more (List.cons_ne_nil _ _) adds, by decide +kernel, holds, ordered holds⟩

end RenderTrace.SourceTree
