import RenderTrace.Proofs.Reference.Node
import RenderTrace.Reference.Place

/-!
# Pruning a tree

A tree is pruned at a level: every reference there that could have been followed is
marked as truncated and loses what is below it. The levels above stay as they are,
and those below go with the references they hang on.
-/

namespace RenderTrace
open Reference

/-- The reference marked as truncated, with nothing below it. One that was not to be followed
anyway, because its view is not literal or stands above it, stays as it is. -/
def Reference.cutOff (r : Reference) : Reference :=
  if r.site.isLiteral && !r.isCycle then { r with isTruncated := true, children := some [] } else r

namespace Level

/-- The tree with the references cut off that have so many levels above their own. -/
def prune : Nat → Level → Level
  | 0, level => level.map fun (key, r) => (key, r.cutOff)
  | n + 1, level => level.map fun (key, r) => (key, r.mapChildren (prune n))

@[simp] theorem prune_nil (n : Nat) : prune n [] = [] := by
  cases n <;> rfl

theorem inner_mapChildren_prune (n : Nat) (r : Reference) :
    (r.mapChildren (prune n)).inner = prune n r.inner := by
  rw [Reference.mapChildren, Reference.inner, Reference.inner]
  cases r.children with
  | none => exact (prune_nil n).symm
  | some level => rfl

theorem mapChildren_prune_of_leaf {r : Reference} (leaf : r.children = some []) (n : Nat) :
    r.mapChildren (prune n) = r := by
  obtain ⟨site, isCycle, isTruncated, children⟩ := r
  subst leaf
  rw [Reference.mapChildren, Option.map_some, prune_nil]

theorem levelSize_map_le {f : Reference → Reference} (smaller : ∀ r, (f r).size ≤ r.size)
    (level : Level) : levelSize (level.map fun e => (e.1, f e.2)) ≤ levelSize level := by
  induction level with
  | nil => exact Nat.le_refl _
  | cons e rest ih =>
      obtain ⟨key, r⟩ := e
      rw [List.map_cons, levelSize, levelSize]
      exact Nat.add_le_add (smaller r) ih

theorem size_cutOff_le (r : Reference) : r.cutOff.size ≤ r.size := by
  rw [Reference.cutOff]
  split
  · rw [size_eq, size_eq]
    exact Nat.add_le_add_left (Nat.zero_le _) 1
  · exact Nat.le_refl _

/-- Pruning only takes references away. -/
theorem levelSize_prune_le (n : Nat) (level : Level) :
    levelSize (prune n level) ≤ levelSize level := by
  induction n generalizing level with
  | zero => exact levelSize_map_le size_cutOff_le level
  | succ n ih =>
      apply levelSize_map_le
      intro r
      rw [size_eq, inner_mapChildren_prune, size_eq r]
      exact Nat.add_le_add_left (ih r.inner) 1

theorem cutOff_eq_self {r : Reference} (untouched : r.cutOff.isTruncated = false) :
    r.cutOff = r := by
  rw [Reference.cutOff] at untouched ⊢
  split at untouched
  · exact absurd untouched (by simp)
  next other => rw [if_neg other]

theorem map_eq_self {f : Reference → Reference} {level : Level}
    (same : ∀ e ∈ level, f e.2 = e.2) : level.map (fun e => (e.1, f e.2)) = level := by
  calc
    level.map (fun e => (e.1, f e.2)) = level.map id := by
      apply List.map_congr_left
      intro e mem
      rw [same e mem, id]
    _ = level := List.map_id level

/-- Where pruning leaves no truncated reference it has cut nothing off. -/
theorem prune_eq_self {n : Nat} {level : Level}
    (untouched : ∀ parent r, (prune n level).Node parent r → r.isTruncated = false) :
    prune n level = level := by
  induction n generalizing level with
  | zero =>
      apply map_eq_self
      intro e mem
      have there : (e.1, e.2.cutOff) ∈ prune 0 level := List.mem_map.mpr ⟨e, mem, rfl⟩
      exact cutOff_eq_self (untouched none _ (Node.first there))
  | succ n ih =>
      apply map_eq_self
      intro e mem
      have there : (e.1, e.2.mapChildren (prune n)) ∈ prune (n + 1) level :=
        List.mem_map.mpr ⟨e, mem, rfl⟩
      have below : prune n e.2.inner = e.2.inner := by
        apply ih
        intro parent r node
        rw [← inner_mapChildren_prune] at node
        exact untouched _ r (Node.of_inner there node)
      obtain ⟨key, site, isCycle, isTruncated, children⟩ := e
      cases children with
      | none => rfl
      | some inside =>
          exact congrArg (fun level => Reference.mk site isCycle isTruncated (some level)) below

end Level
end RenderTrace
