import RenderTrace.Proofs.Expansion.Stack

/-!
# The rounds of an expansion

Each round takes one waiting reference off the stack and fills it in, and every
reference of the finished tree waits once. So the loop ends, and it has gone round
as often as the tree has references.
-/

namespace RenderTrace.Expansion
open Reference

/-- From a tree and the references that wait to be treated, the loop ends after so many rounds,
with nothing waiting any more. -/
inductive Rounds (inclusions : Inclusions) (maxDepth : Int) :
    Nat → Level → List Pending → Level → Prop
  | done {tree : Level} : Rounds inclusions maxDepth 0 tree [] tree
  | treat {n : Nat} {tree result : Level} {p : Pending} {rest : List Pending}
      (next : Rounds inclusions maxDepth n (p.modify (step inclusions maxDepth p).change tree)
        ((step inclusions maxDepth p).added ++ rest) result) :
      Rounds inclusions maxDepth (n + 1) tree (p :: rest) result

/-- The expansion of a start ends after so many rounds with a tree. -/
def EndsAfter (inclusions : Inclusions) (maxDepth : Int) (start : Start) (n : Nat)
    (result : Level) : Prop :=
  Rounds inclusions maxDepth n (start.level inclusions)
    (waiting [] 1 start.above (start.level inclusions)) result

variable (inclusions : Inclusions) (maxDepth : Int)

/-- The size of what the recursion makes of a waiting reference. -/
def Pending.grownSize (p : Pending) : Nat :=
  (p.grown inclusions maxDepth).size

theorem levelSize_map (f : String × Reference → Reference) (level : Level) :
    levelSize (level.map fun e => (e.1, f e)) = total (fun e => (f e).size) level := by
  induction level with
  | nil => rfl
  | cons e rest ih => rw [List.map_cons, levelSize, total, ih]

/-- What waits for a level, once filled in, makes up the level. -/
theorem total_grownSize_waiting (path : List String) (depth : Nat) (above : List String)
    (level : Level) :
    total (Pending.grownSize inclusions maxDepth) (waiting path depth above level) =
      levelSize (growLevel inclusions maxDepth depth above level) := by
  rw [waiting, total_map, growLevel]
  exact (levelSize_map _ level).symm

/-- A treated reference counts for itself and for the references it adds. -/
theorem grownSize_eq (p : Pending) :
    p.grownSize inclusions maxDepth =
      1 + total (Pending.grownSize inclusions maxDepth) (step inclusions maxDepth p).added := by
  by_cases followed : Followed maxDepth p.depth p.above p.site
  · rw [step_of_followed inclusions maxDepth followed, total_grownSize_waiting,
      Pending.grownSize, Pending.grown, grow_of_followed followed, size]
  · have leaf : (grow inclusions maxDepth p.depth p.above p.site).children = some [] :=
      children_grow_of_not_followed followed
    rw [step_of_not_followed inclusions maxDepth followed, Pending.grownSize, size_eq,
      Reference.inner, Pending.grown, leaf]
    rfl

theorem rounds_run (tree : Level) (stack : List Pending) :
    Rounds inclusions maxDepth (total (Pending.grownSize inclusions maxDepth) stack) tree stack
      (run inclusions maxDepth tree stack) := by
  fun_induction run inclusions maxDepth tree stack with
  | case1 tree => exact Rounds.done
  | case2 tree p rest s ih =>
      -- What the round adds is still to be treated, before all that waited already.
      rw [total_append] at ih
      have rounds : total (Pending.grownSize inclusions maxDepth) (p :: rest) =
          total (Pending.grownSize inclusions maxDepth) (step inclusions maxDepth p).added +
            total (Pending.grownSize inclusions maxDepth) rest + 1 := by
        rw [total, grownSize_eq]
        omega
      rw [rounds]
      exact Rounds.treat ih

/-- The expansion goes round once for every reference of the tree it ends with. -/
theorem endsAfter_levelSize (start : Start) :
    EndsAfter inclusions maxDepth start (levelSize (tree inclusions maxDepth start))
      (tree inclusions maxDepth start) := by
  have size : levelSize (tree inclusions maxDepth start) =
      total (Pending.grownSize inclusions maxDepth)
        (waiting [] 1 start.above (start.level inclusions)) := by
    rw [tree_eq_filled, levelSize_map, waiting, total_map]
    congr 1
    funext e
    rw [size_eq, Pending.grownSize, size_eq]
    rfl
  rw [EndsAfter, size]
  exact rounds_run inclusions maxDepth _ _

end RenderTrace.Expansion
