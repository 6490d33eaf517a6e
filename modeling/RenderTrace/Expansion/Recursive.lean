import RenderTrace.Expansion
import RenderTrace.Proofs.Keyed

/-!
# Expansion by recursion

The same tree by plain recursion: what a site becomes depends on its depth and on
the views above it alone, and each site below it is expanded on its own. A level is
keyed without a loop too, from the names that come in it.
-/

namespace RenderTrace

namespace Level

/-- The references keyed by name: every name once, in the order in which the names first come, with
the last reference of that name. -/
def keyed (refs : List Reference) : Level :=
  (refs.map (·.name)).eraseDups.filterMap fun name =>
    ((refs.filter fun r => r.name = name).getLast?).map fun r => (name, r)

/-- Under a name a level holds the last reference of that name. -/
theorem get?_ofReferences (name : String) (refs : List Reference) :
    Keyed.get? name (ofReferences refs) = (refs.filter fun r => r.name = name).getLast? := by
  rw [ofReferences, Keyed.get?_ofList, List.filter_map, List.getLast?_map, Option.map_map]
  exact Option.map_id'

/-- Putting references one after another under their names keys them. -/
theorem ofReferences_eq_keyed (refs : List Reference) : ofReferences refs = keyed refs := by
  have names : (ofReferences refs).map (·.1) = (refs.map (·.name)).eraseDups := by
    rw [ofReferences, Keyed.keys_ofList, List.map_map]
    rfl
  have distinct : ((ofReferences refs).map (·.1)).Nodup := Keyed.nodup_keys_ofList _
  have entries := Keyed.eq_filterMap_get? distinct
  simp only [get?_ofReferences, names] at entries
  exact entries

end Level

namespace Expansion

/-- The reference a site becomes at a depth, below the given views. -/
def grow (inclusions : Inclusions) (maxDepth : Int) (depth : Nat) (above : List String)
    (s : Site) : Reference :=
  if !s.isLiteral then ⟨s, false, false, some []⟩
  else if ViewName.normal s.name ∈ above then ⟨s, true, false, some []⟩
  else if maxDepth < depth then ⟨s, false, true, some []⟩
  else
    ⟨s, false, false, some ((Level.keyed ((inclusions s.name).map Site.reference)).map
      fun (key, r) =>
        (key, grow inclusions maxDepth (depth + 1) (ViewName.normal s.name :: above) r.site))⟩
termination_by (maxDepth + 1 - depth).toNat

/-- A level expanded at a depth, below the given views. -/
def growLevel (inclusions : Inclusions) (maxDepth : Int) (depth : Nat) (above : List String)
    (level : Level) : Level :=
  level.map fun (key, r) => (key, grow inclusions maxDepth depth above r.site)

/-- The template of a site is looked into: its view is literal, stands not above it, and lies
within the depth. -/
def Followed (maxDepth : Int) (depth : Nat) (above : List String) (s : Site) : Prop :=
  s.isLiteral ∧ ViewName.normal s.name ∉ above ∧ (depth : Int) ≤ maxDepth

variable {inclusions : Inclusions} {maxDepth : Int} {depth : Nat} {above : List String} {s : Site}

@[simp] theorem site_grow : (grow inclusions maxDepth depth above s).site = s := by
  rw [grow]
  split
  · rfl
  · split
    · rfl
    · split <;> rfl

theorem grow_of_followed (h : Followed maxDepth depth above s) :
    grow inclusions maxDepth depth above s =
      ⟨s, false, false, some (growLevel inclusions maxDepth (depth + 1)
        (ViewName.normal s.name :: above) (Level.ofSites (inclusions s.name)))⟩ := by
  obtain ⟨literal, fresh, within⟩ := h
  rw [grow, if_neg (by simp [literal]), if_neg fresh, if_neg (Int.not_lt.mpr within),
    Level.ofSites, Level.ofReferences_eq_keyed]
  rfl

theorem grow_of_not_literal (h : s.isLiteral = false) :
    grow inclusions maxDepth depth above s = ⟨s, false, false, some []⟩ := by
  rw [grow, if_pos (by simp [h])]

theorem grow_of_mem_above (literal : s.isLiteral) (repeated : ViewName.normal s.name ∈ above) :
    grow inclusions maxDepth depth above s = ⟨s, true, false, some []⟩ := by
  rw [grow, if_neg (by simp [literal]), if_pos repeated]

theorem grow_of_lt (literal : s.isLiteral) (fresh : ViewName.normal s.name ∉ above)
    (deep : maxDepth < depth) :
    grow inclusions maxDepth depth above s = ⟨s, false, true, some []⟩ := by
  rw [grow, if_neg (by simp [literal]), if_neg fresh, if_pos deep]

theorem children_grow_of_not_followed (h : ¬ Followed maxDepth depth above s) :
    (grow inclusions maxDepth depth above s).children = some [] := by
  rw [grow]
  split
  · rfl
  next literal =>
    split
    · rfl
    next fresh =>
      split
      · rfl
      next within => exact absurd ⟨by simpa using literal, fresh, Int.not_lt.mp within⟩ h

theorem isCycle_grow_iff :
    (grow inclusions maxDepth depth above s).isCycle ↔
      s.isLiteral ∧ ViewName.normal s.name ∈ above := by
  rw [grow]
  split
  next literal => simp_all
  next literal =>
    split
    next repeated => simp_all
    next fresh => split <;> simp [fresh]

theorem isTruncated_grow_iff :
    (grow inclusions maxDepth depth above s).isTruncated ↔
      s.isLiteral ∧ ViewName.normal s.name ∉ above ∧ maxDepth < depth := by
  rw [grow]
  split
  next literal => simp_all
  next literal =>
    split
    next repeated => simp [repeated]
    next fresh => split <;> simp_all

/-- The references an expansion starts with. -/
def Start.given (inclusions : Inclusions) : Start → List Reference
  | .view name => (inclusions name).map Site.reference
  | .references refs => refs

end Expansion
end RenderTrace
