import RenderTrace.Reference.Place
import RenderTrace.ViewName

/-!
# Expanding references

What a view includes is expanded level by level into a tree. A reference without a
literal name is not followed; one whose view stands on the path above it is marked
as a cycle; one below the depth limit is marked as truncated. The others get the
level of the sites their template holds.

One tree is filled in place. The references still to be treated wait on a stack, and
those of a new level go on top of it, so a whole branch is finished before the next
one begins. Every waiting reference knows its place, its depth and the views on the
path above it.
-/

namespace RenderTrace

/-- The sites that the template of each view holds. -/
abbrev Inclusions := String → List Site

namespace Expansion

/-- A reference still to be treated: its site, the keys of the references above it, nearest
first, its depth, and the views on the path above it. -/
structure Pending where
  site : Site
  path : List String
  depth : Nat
  above : List String

/-- What treating a reference does: the change to it, and the references it adds. -/
structure Step where
  change : Reference → Reference
  added : List Pending

/-- The references of a level, in order. -/
def waiting (path : List String) (depth : Nat) (above : List String) (level : Level) :
    List Pending :=
  level.map fun (_, r) => ⟨r.site, path, depth, above⟩

/-- Treats a reference. -/
def step (inclusions : Inclusions) (maxDepth : Int) (p : Pending) : Step :=
  if !p.site.isLiteral then
    ⟨fun r => { r with children := some [] }, []⟩
  else if ViewName.normal p.site.name ∈ p.above then
    ⟨fun r => { r with isCycle := true, children := some [] }, []⟩
  else if maxDepth < p.depth then
    ⟨fun r => { r with isTruncated := true, children := some [] }, []⟩
  else
    let level := Level.ofSites (inclusions p.site.name)
    ⟨fun r => { r with children := some level },
      waiting (p.site.name :: p.path) (p.depth + 1) (ViewName.normal p.site.name :: p.above) level⟩

/-- Changes a waiting reference where it stands. -/
def Pending.modify (p : Pending) (change : Reference → Reference) (tree : Level) : Level :=
  tree.modifyBelow p.path (Level.modify p.site.name change)

/-- A measure added up over a list. -/
def total {α : Type} (measure : α → Nat) : List α → Nat
  | [] => 0
  | a :: rest => measure a + total measure rest

theorem total_append {α : Type} (measure : α → Nat) (as bs : List α) :
    total measure (as ++ bs) = total measure as + total measure bs := by
  induction as with
  | nil => rw [List.nil_append, total, Nat.zero_add]
  | cons a as ih => rw [List.cons_append, total, total, ih, Nat.add_assoc]

theorem total_map {α β : Type} (measure : β → Nat) (f : α → β) (as : List α) :
    total measure (as.map f) = total (fun a => measure (f a)) as := by
  induction as with
  | nil => rfl
  | cons a as ih => rw [List.map_cons, total, total, ih]

/-- The most steps that a reference with so many levels still allowed can ask for. -/
def effort (inclusions : Inclusions) : Nat → Site → Nat
  | 0, _ => 1
  | n + 1, s =>
    1 + total (fun e => effort inclusions n e.2.site) (Level.ofSites (inclusions s.name))

/-- The most steps that waiting references can ask for. -/
def totalEffort (inclusions : Inclusions) (maxDepth : Int) (stack : List Pending) : Nat :=
  total (fun p => effort inclusions (maxDepth + 1 - p.depth).toNat p.site) stack

theorem totalEffort_added_lt (inclusions : Inclusions) (maxDepth : Int) (p : Pending)
    (rest : List Pending) :
    totalEffort inclusions maxDepth ((step inclusions maxDepth p).added ++ rest) <
      totalEffort inclusions maxDepth (p :: rest) := by
  have positive : ∀ n s, 0 < effort inclusions n s := by
    intro n s
    cases n with
    | zero => simp [effort]
    | succ n => rw [effort]; omega
  have here := positive (maxDepth + 1 - p.depth).toNat p.site
  rw [totalEffort, totalEffort, total_append, total]
  refine Nat.add_lt_add_right ?_ _
  unfold step
  split
  · exact here
  · split
    · exact here
    · split
      · exact here
      next within =>
        have levels : (maxDepth + 1 - p.depth).toNat =
            (maxDepth + 1 - ((p.depth + 1 : Nat) : Int)).toNat + 1 := by omega
        simp only [waiting]
        rw [levels, effort, total_map]
        exact Nat.lt_add_of_pos_left Nat.one_pos

/-- Treats the waiting references, the first of them next, until none is left. -/
def run (inclusions : Inclusions) (maxDepth : Int) (tree : Level) : List Pending → Level
  | [] => tree
  | p :: rest =>
    let s := step inclusions maxDepth p
    run inclusions maxDepth (p.modify s.change tree) (s.added ++ rest)
termination_by stack => totalEffort inclusions maxDepth stack
decreasing_by exact totalEffort_added_lt inclusions maxDepth p rest

/-- Where an expansion starts: at a view, or at references already found. -/
inductive Start where
  | view (name : String)
  | references (refs : List Reference)

/-- The views on the path above the first level. -/
def Start.above : Start → List String
  | .view name => [ViewName.normal name]
  | .references _ => []

/-- The first level before it is expanded. -/
def Start.level (inclusions : Inclusions) : Start → Level
  | .view name => Level.ofSites (inclusions name)
  | .references refs => Level.ofReferences refs

/-- The expanded tree. The references of the first level have depth one, and no reference deeper
than `maxDepth` grows. -/
def tree (inclusions : Inclusions) (maxDepth : Int) (start : Start) : Level :=
  let level := start.level inclusions
  run inclusions maxDepth level (waiting [] 1 start.above level)

end Expansion
end RenderTrace
