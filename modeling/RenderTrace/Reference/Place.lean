import RenderTrace.Reference

/-!
# Changes in place

A level of a tree is named by the keys of the references above it, the nearest
first; the empty list of keys names the first level. A change goes to one level,
and there to one reference, and leaves the rest of the tree as it is.
-/

namespace RenderTrace

/-- The reference with the level below it changed; one not expanded stays as it is. -/
def Reference.mapChildren (change : Level → Level) (r : Reference) : Reference :=
  { r with children := r.children.map change }

@[simp] theorem Reference.mapChildren_id (r : Reference) :
    r.mapChildren (fun level => level) = r := by
  obtain ⟨_, _, _, children⟩ := r
  rw [mapChildren, Option.map_id']

namespace Level

/-- Changes the reference under a key. -/
def modify (key : String) (change : Reference → Reference) (level : Level) : Level :=
  level.map fun (k, r) => (k, if k = key then change r else r)

/-- Changes the level below the references with the given keys. -/
def modifyBelow : List String → (Level → Level) → Level → Level
  | [], change => change
  | key :: outer, change => modifyBelow outer (modify key (Reference.mapChildren change))

@[simp] theorem modify_nil (key : String) (change : Reference → Reference) :
    modify key change [] = [] := rfl

@[simp] theorem modify_cons_self (key : String) (change : Reference → Reference)
    (r : Reference) (rest : Level) :
    modify key change ((key, r) :: rest) = (key, change r) :: modify key change rest := by
  simp [modify]

theorem modify_append (key : String) (change : Reference → Reference) (a b : Level) :
    modify key change (a ++ b) = modify key change a ++ modify key change b := by
  simp [modify]

theorem modify_of_not_mem {key : String} {change : Reference → Reference} {level : Level}
    (h : key ∉ level.map (·.1)) : modify key change level = level := by
  induction level with
  | nil => rfl
  | cons e rest ih =>
      obtain ⟨k, r⟩ := e
      simp only [List.map_cons, List.mem_cons, not_or] at h
      have other : k ≠ key := fun e => h.1 e.symm
      have tail : modify key change rest = rest := ih h.2
      simp only [modify, List.map_cons, if_neg other] at tail ⊢
      rw [tail]

theorem modify_modify (key : String) (f g : Reference → Reference) (level : Level) :
    modify key f (modify key g level) = modify key (f ∘ g) level := by
  simp only [modify, List.map_map]
  apply List.map_congr_left
  intro e _
  by_cases h : e.1 = key <;> simp [h]

/-- Leaving a level as it is leaves the tree as it is. -/
theorem modifyBelow_id (path : List String) (tree : Level) :
    modifyBelow path (fun level => level) tree = tree := by
  induction path with
  | nil => rfl
  | cons key outer ih =>
      have same : modify key (Reference.mapChildren fun level => level) = fun level => level := by
        funext level
        simp [modify]
      rw [modifyBelow, same, ih]

/-- Two changes of one level are one change. -/
theorem modifyBelow_modifyBelow (path : List String) (f g : Level → Level) (tree : Level) :
    modifyBelow path f (modifyBelow path g tree) = modifyBelow path (f ∘ g) tree := by
  induction path generalizing f g with
  | nil => rfl
  | cons key outer ih =>
      simp only [modifyBelow]
      rw [ih]
      congr 1
      funext level
      rw [Function.comp_apply, modify_modify]
      congr 1
      funext r
      simp [Reference.mapChildren, Function.comp_def]

end Level

end RenderTrace
