import RenderTrace.Keyed
import RenderTrace.Site

/-!
# Reference trees

A reference is a site together with the views it reaches once expanded. A level of
the tree is a keyed list of references; a reference that has not been expanded has
no level below it, which differs from an empty one.
-/

namespace RenderTrace

/-- A site and what has been found below it. -/
structure Reference where
  site : Site
  /-- Its view stands on the path above it. -/
  isCycle : Bool
  /-- It lies deeper than the limit. -/
  isTruncated : Bool
  children : Option (List (String × Reference))
deriving Inhabited

/-- A keyed list of references. -/
abbrev Level := List (String × Reference)

namespace Reference

/-- The view referred to. -/
def name (r : Reference) : String :=
  r.site.name

/-- The entries below, none when not expanded. -/
def inner (r : Reference) : Level :=
  r.children.getD []

/-- The reference has been expanded. -/
def isExpanded (r : Reference) : Bool :=
  r.children.isSome

mutual

/-- The number of references of a tree. -/
def size : Reference → Nat
  | ⟨_, _, _, none⟩ => 1
  | ⟨_, _, _, some level⟩ => 1 + levelSize level

/-- The number of references of a level and below it. -/
def levelSize : List (String × Reference) → Nat
  | [] => 0
  | (_, r) :: rest => r.size + levelSize rest

end

@[simp]
theorem levelSize_append (a b : Level) : levelSize (a ++ b) = levelSize a + levelSize b := by
  induction a with
  | nil => simp [levelSize]
  | cons e rest ih => obtain ⟨k, r⟩ := e; simp [levelSize, ih, Nat.add_assoc]

theorem size_eq (r : Reference) : r.size = 1 + levelSize r.inner := by
  obtain ⟨_, _, _, _ | level⟩ := r <;> simp [size, inner, levelSize]

end Reference

/-- A site before expansion. -/
def Site.reference (s : Site) : Reference :=
  ⟨s, false, false, none⟩

namespace Level

/-- References keyed by the view they name; of those with one name the first gives the place and
the last the reference. -/
def ofReferences (refs : List Reference) : Level :=
  Keyed.ofList (refs.map fun r => (r.name, r))

/-- Sites keyed by the view they name. -/
def ofSites (sites : List Site) : Level :=
  ofReferences (sites.map Site.reference)

end Level

end RenderTrace
