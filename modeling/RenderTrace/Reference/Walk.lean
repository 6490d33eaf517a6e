import RenderTrace.Reference

/-!
# Walking a reference tree

The entries of a tree, parents before children and children in order. The keys and
the references are collected by a loop each, which keeps what is still to visit on a
stack, so that its depth does not depend on the tree; the same order by recursion
stands beside them.
-/

namespace RenderTrace.Level
open Reference

/-- The keys met from a stack of pending entries, top first. -/
def namesFrom : Level → List String
  | [] => []
  | (key, r) :: pending => key :: namesFrom (r.inner ++ pending)
termination_by pending => levelSize pending
decreasing_by
  rw [levelSize_append, levelSize, size_eq]
  omega

/-- The keys of all entries of the tree, depth first. -/
def names (level : Level) : List String :=
  namesFrom level

/-- The number of references at and below several ones. -/
def sizes : List Reference → Nat
  | [] => 0
  | r :: rest => r.size + sizes rest

theorem sizes_append (a b : List Reference) : sizes (a ++ b) = sizes a + sizes b := by
  induction a with
  | nil => rw [List.nil_append, sizes, Nat.zero_add]
  | cons r rest ih => rw [List.cons_append, sizes, ih, sizes, Nat.add_assoc]

theorem sizes_map_snd (level : Level) : sizes (level.map (·.2)) = levelSize level := by
  induction level with
  | nil => rfl
  | cons e rest ih => rw [List.map_cons, sizes, ih, levelSize]

/-- The references met from a stack of pending ones, top first. -/
def referencesFrom : List Reference → List Reference
  | [] => []
  | r :: pending => r :: referencesFrom (r.inner.map (·.2) ++ pending)
termination_by pending => sizes pending
decreasing_by
  rw [sizes_append, sizes_map_snd, sizes, size_eq]
  omega

/-- All references of the tree, depth first. -/
def references (level : Level) : List Reference :=
  referencesFrom (level.map (·.2))

/-- The references cut because their view stands above them. -/
def cycles (level : Level) : List Reference :=
  (references level).filter (·.isCycle)

/-- The references cut at the depth limit. -/
def truncated (level : Level) : List Reference :=
  (references level).filter (·.isTruncated)

mutual

/-- An entry and everything below it, parents first. -/
def entryPreorder (key : String) : Reference → Level
  | ⟨site, isCycle, isTruncated, none⟩ => [(key, ⟨site, isCycle, isTruncated, none⟩)]
  | ⟨site, isCycle, isTruncated, some level⟩ =>
    (key, ⟨site, isCycle, isTruncated, some level⟩) :: preorder level

/-- The entries of a level, each followed by what is below it. -/
def preorder : List (String × Reference) → Level
  | [] => []
  | (key, r) :: rest => entryPreorder key r ++ preorder rest

end

/-- The keys of a tree nested as its entries are. -/
inductive KeyTree where
  | node (key : String) (below : List KeyTree)

mutual

/-- The keys below a reference. -/
def keysBelow : Reference → List KeyTree
  | ⟨_, _, _, none⟩ => []
  | ⟨_, _, _, some level⟩ => keyTrees level

/-- The keys of a level, nested. -/
def keyTrees : List (String × Reference) → List KeyTree
  | [] => []
  | (key, r) :: rest => .node key (keysBelow r) :: keyTrees rest

end

end RenderTrace.Level
