import RenderTrace.Proofs.Expansion.Depth

/-!
# The marks of an expanded tree

The marks that an expansion sets say why it did not follow a reference, and such a
reference has nothing below it. An expansion never takes a mark back, so a reference
that was marked before and is expanded again, perhaps with a larger limit, keeps the
mark although it is followed now. Only the references that the expansion starts with
can have been marked before.
-/

namespace RenderTrace.Expansion

/-- The marks of a reference say why it was not followed: what is marked as a cycle names one of the
views above it, what is marked as truncated lies deeper than the limit, and neither has anything
below it. -/
structure MarksHold (maxDepth : Int) (above : List String) (depth : Nat) (r : Reference) :
    Prop where
  cycle : r.isCycle → r.site.isLiteral ∧ r.view ∈ above
  truncated : r.isTruncated → maxDepth < depth
  leaf : r.isCycle ∨ r.isTruncated → r.children = some []

variable {inclusions : Inclusions} {maxDepth : Int} {depth : Nat} {above : List String}

/-- A reference is expanded with marks that hold exactly when those hold that it had before. -/
theorem marksHold_filled_iff (r : Reference) :
    MarksHold maxDepth above depth (r.filled (grow inclusions maxDepth depth above r.site)) ↔
      (r.isCycle → r.site.isLiteral ∧ r.view ∈ above) ∧ (r.isTruncated → maxDepth < depth) := by
  constructor
  · intro marks
    constructor
    · intro cycle
      exact marks.cycle (by simp [Reference.filled, cycle])
    · intro truncated
      exact marks.truncated (by simp [Reference.filled, truncated])
  · rintro ⟨cycle, truncated⟩
    have cycle' : (r.filled (grow inclusions maxDepth depth above r.site)).isCycle →
        r.site.isLiteral ∧ r.view ∈ above := by
      intro marked
      rcases Bool.or_eq_true_iff.mp marked with old | new
      · exact cycle old
      · exact isCycle_grow_iff.mp new
    have truncated' : (r.filled (grow inclusions maxDepth depth above r.site)).isTruncated →
        maxDepth < depth := by
      intro marked
      rcases Bool.or_eq_true_iff.mp marked with old | new
      · exact truncated old
      · exact (isTruncated_grow_iff.mp new).2.2
    refine ⟨cycle', truncated', ?_⟩
    intro marked
    apply children_grow_of_not_followed
    rintro ⟨_, fresh, within⟩
    rcases marked with marked | marked
    · exact fresh (cycle' marked).2
    · exact Int.not_lt.mpr within (truncated' marked)

/-- The marks of a reference of the tree hold exactly when those did that it had where the expansion
found it. -/
theorem exists_marksHold_iff {start : Start} {outer : List Reference} {r : Reference}
    (branch : (tree inclusions maxDepth start).Branch outer r) :
    ∃ e ∈ start.levelBelow inclusions outer,
      (MarksHold maxDepth (outer.map (·.view) ++ start.above) (outer.length + 1) r ↔
        (e.2.isCycle → e.2.site.isLiteral ∧ e.2.view ∈ outer.map (·.view) ++ start.above) ∧
          (e.2.isTruncated → maxDepth < (outer.length + 1 : Nat))) := by
  obtain ⟨_, e, mem, grown⟩ := visit_of_branch branch
  have site : r.site = e.2.site := by
    rw [grown]
    rfl
  rw [site] at grown
  refine ⟨e, mem, ?_⟩
  rw [grown]
  exact marksHold_filled_iff e.2

/-- Every reference of the first level is in the tree, filled in. -/
theorem branch_of_mem_level {start : Start} {e : String × Reference}
    (mem : e ∈ start.level inclusions) :
    (tree inclusions maxDepth start).Branch []
      (e.2.filled (grow inclusions maxDepth 1 start.above e.2.site)) :=
  Level.Branch.first (mem_tree_iff.mpr ⟨e, mem, rfl⟩)

/-- Below the first level all marks hold, and on it they do exactly when no reference came marked
as a cycle and none came marked as truncated that lies within the limit. -/
theorem marksHold_iff (inclusions : Inclusions) (maxDepth : Int) (refs : List Reference) :
    (∀ outer r, (tree inclusions maxDepth (.references refs)).Branch outer r → outer ≠ [] →
        MarksHold maxDepth (outer.map (·.view)) (outer.length + 1) r) ∧
      ((∀ outer r, (tree inclusions maxDepth (.references refs)).Branch outer r →
          MarksHold maxDepth (outer.map (·.view)) (outer.length + 1) r) ↔
        ∀ e ∈ Level.ofReferences refs,
          e.2.isCycle = false ∧ (e.2.isTruncated → maxDepth < 1)) := by
  have below : ∀ outer r, (tree inclusions maxDepth (.references refs)).Branch outer r →
      outer ≠ [] → MarksHold maxDepth (outer.map (·.view)) (outer.length + 1) r := by
    intro outer r branch deeper
    obtain ⟨e, mem, marks⟩ := exists_marksHold_iff branch
    obtain ⟨cycle, truncated⟩ :=
      Start.unflagged_of_mem_levelBelow (fun first => absurd first deeper) mem
    rw [Start.above, List.append_nil, cycle, truncated] at marks
    exact marks.mpr ⟨Bool.noConfusion, Bool.noConfusion⟩
  refine ⟨below, ?_⟩
  constructor
  · intro all e mem
    obtain ⟨cycle, truncated⟩ :=
      (marksHold_filled_iff e.2).mp (all [] _ (branch_of_mem_level mem))
    constructor
    · by_contra marked
      exact List.not_mem_nil (cycle (eq_true_of_ne_false marked)).2
    · exact truncated
  · intro fresh outer r branch
    cases outer with
    | nil =>
        obtain ⟨e, mem, marks⟩ := exists_marksHold_iff branch
        obtain ⟨cycle, truncated⟩ := fresh e mem
        rw [cycle] at marks
        exact marks.mpr ⟨Bool.noConfusion, truncated⟩
    | cons parent outer => exact below (parent :: outer) r branch (List.cons_ne_nil _ _)

/-- The call of the page as an expansion under the limit zero leaves it. -/
def cutPageCall : Reference :=
  { pageCall with isTruncated := true, children := some [] }

theorem tree_pageCall_zero :
    tree pageInclusions 0 (.references [pageCall]) = [("page", cutPageCall)] := by
  have cut : grow pageInclusions 0 1 [] pageCall.site = cutPageCall :=
    grow_of_lt rfl List.not_mem_nil (by decide)
  rw [tree_eq_growLevel pageCall_isUnflagged]
  exact congrArg (fun r => [("page", r)]) cut

theorem truncated_pageCall :
    (tree pageInclusions 0 (.references [pageCall])).truncated = [cutPageCall] := by
  rw [tree_pageCall_zero]
  simp [Level.truncated, Level.references, Level.referencesFrom, Reference.inner, cutPageCall]

theorem marksHold_iff_cutPageCall :
    (∀ e ∈ Level.ofReferences [cutPageCall],
        e.2.isCycle = false ∧ (e.2.isTruncated → (0 : Int) < 1)) ∧
      ∀ outer r, (tree pageInclusions 0 (.references [cutPageCall])).Branch outer r →
        MarksHold 0 (outer.map (·.view)) (outer.length + 1) r := by
  have cut : ∀ e ∈ Level.ofReferences [cutPageCall],
      e.2.isCycle = false ∧ (e.2.isTruncated → (0 : Int) < 1) := by
    intro e mem
    rw [List.mem_singleton.mp mem]
    exact ⟨rfl, fun _ => by decide⟩
  exact ⟨cut, (marksHold_iff pageInclusions 0 [cutPageCall]).2.mpr cut⟩

/-- What the limit zero cut off is given back and expanded under a larger one. The page is followed
now and lies within the limit, and it is still marked as truncated. -/
theorem marksHold_fails_givenBack :
    ¬ ∀ outer r, (tree pageInclusions 8 (.references
        (tree pageInclusions 0 (.references [pageCall])).truncated)).Branch outer r →
      MarksHold 8 (outer.map (·.view)) (outer.length + 1) r := by
  intro all
  rw [truncated_pageCall] at all
  have there : ("page", cutPageCall) ∈ Level.ofReferences [cutPageCall] :=
    List.mem_singleton.mpr rfl
  have marks := all [] _ (branch_of_mem_level there)
  exact absurd (marks.truncated rfl) (by decide)

end RenderTrace.Expansion
