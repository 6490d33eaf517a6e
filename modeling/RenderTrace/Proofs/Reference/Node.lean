import RenderTrace.Reference.Walk

/-!
# The nodes of a tree

Every reference that a tree holds, on whatever level, together with the reference
it stands directly below, or with all the references above it.
-/

namespace RenderTrace.Level

/-- The tree holds a reference, directly below the given one or on the first level. -/
inductive Node (level : Level) : Option Reference → Reference → Prop
  | first {key : String} {r : Reference} (mem : (key, r) ∈ level) : Node level none r
  | inner {outer : Option Reference} {parent r : Reference} {key : String}
      (node : Node level outer parent) (mem : (key, r) ∈ parent.inner) :
      Node level (some parent) r

/-- The tree holds a reference below the given ones, the nearest of them first, with nothing above
the last: together they are a way down from the first level. -/
inductive Branch (level : Level) : List Reference → Reference → Prop
  | first {key : String} {r : Reference} (mem : (key, r) ∈ level) : Branch level [] r
  | inner {outer : List Reference} {parent r : Reference} {key : String}
      (branch : Branch level outer parent) (mem : (key, r) ∈ parent.inner) :
      Branch level (parent :: outer) r

variable {level : Level}

theorem Node.exists_branch {parent : Option Reference} {r : Reference}
    (node : level.Node parent r) :
    ∃ outer, level.Branch outer r ∧ outer.head? = parent := by
  induction node with
  | first mem => exact ⟨[], Branch.first mem, rfl⟩
  | @inner _ parent _ _ _ mem ih =>
      obtain ⟨outer, branch, _⟩ := ih
      exact ⟨parent :: outer, Branch.inner branch mem, rfl⟩

/-- A node of what is below a reference is a node of the whole tree. -/
theorem Node.of_inner {key : String} {r q : Reference} {parent : Option Reference}
    (mem : (key, r) ∈ level) (node : Level.Node r.inner parent q) :
    level.Node (some (parent.getD r)) q := by
  induction node with
  | first mem' => exact Node.inner (Node.first mem) mem'
  | inner _ mem' ih => exact Node.inner ih mem'

theorem mem_referencesFrom {pending : List Reference} {r : Reference} (mem : r ∈ pending) :
    r ∈ referencesFrom pending := by
  fun_induction referencesFrom pending with
  | case1 => exact mem
  | case2 first pending ih =>
      rcases List.mem_cons.mp mem with rfl | waiting
      · exact List.mem_cons_self
      · exact List.mem_cons_of_mem _ (ih (List.mem_append_right _ waiting))

theorem mem_referencesFrom_of_mem_inner {pending : List Reference} {parent r : Reference}
    {key : String} (met : parent ∈ referencesFrom pending) (mem : (key, r) ∈ parent.inner) :
    r ∈ referencesFrom pending := by
  fun_induction referencesFrom pending with
  | case1 => exact absurd met List.not_mem_nil
  | case2 first pending ih =>
      rcases List.mem_cons.mp met with rfl | further
      · have below : r ∈ parent.inner.map (·.2) := List.mem_map_of_mem mem
        exact List.mem_cons_of_mem _ (mem_referencesFrom (List.mem_append_left _ below))
      · exact List.mem_cons_of_mem _ (ih further)

/-- The walk over a tree meets every node. -/
theorem Node.mem_references {parent : Option Reference} {r : Reference}
    (node : level.Node parent r) : r ∈ level.references := by
  induction node with
  | first mem => exact mem_referencesFrom (List.mem_map_of_mem mem)
  | inner _ mem ih => exact mem_referencesFrom_of_mem_inner ih mem

theorem Node.isTruncated_eq_false (whole : level.truncated = []) {parent : Option Reference}
    {r : Reference} (node : level.Node parent r) : r.isTruncated = false := by
  cases marked : r.isTruncated with
  | false => rfl
  | true =>
      have met : r ∈ level.truncated := List.mem_filter.mpr ⟨node.mem_references, marked⟩
      rw [whole] at met
      exact absurd met List.not_mem_nil

end RenderTrace.Level
