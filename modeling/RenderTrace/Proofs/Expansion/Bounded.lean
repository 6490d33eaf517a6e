import Mathlib.Data.Set.Card
import RenderTrace.Proofs.Expansion.Depth
import RenderTrace.Proofs.Expansion.Rounds

/-!
# What bounds an expansion

On a way down the tree no view is followed twice, so a way is no longer than the
names that templates refer to allow, whatever the depth limit. A limit as large as
the number of those names therefore cuts nothing off, and no larger one changes the
tree or the number of rounds it takes.
-/

namespace RenderTrace

/-- The template of the reference has been looked into: its view is literal and it carries no
mark. -/
def Reference.isGrown (r : Reference) : Bool :=
  r.site.isLiteral && !r.isCycle && !r.isTruncated

namespace Expansion

/-- The views that the start or any template refers to by a literal name. -/
def vocabulary (inclusions : Inclusions) (start : Start) : Set String :=
  {view | ∃ s : Site, s.isLiteral ∧ ViewName.normal s.name = view ∧
    (s ∈ start.sites inclusions ∨ ∃ name, s ∈ inclusions name)}

variable {inclusions : Inclusions} {maxDepth : Int} {start : Start}

theorem isGrown_grow_iff {depth : Nat} {above : List String} {s : Site} :
    (grow inclusions maxDepth depth above s).isGrown ↔ Followed maxDepth depth above s := by
  simp only [Reference.isGrown, Bool.and_eq_true, Bool.not_eq_true', ← Bool.not_eq_true,
    isCycle_grow_iff, isTruncated_grow_iff, site_grow, Followed, ← Int.not_lt]
  tauto

/-- A visited site whose name is literal belongs to the vocabulary. -/
theorem Visit.mem_vocabulary {parent : Option Site} {depth : Nat} {above : List String} {s : Site}
    (visit : Visit inclusions maxDepth start parent depth above s) (literal : s.isLiteral) :
    ViewName.normal s.name ∈ vocabulary inclusions start := by
  refine ⟨s, literal, rfl, ?_⟩
  cases parent with
  | none => exact Or.inl visit.mem_start
  | some p => exact Or.inr ⟨p.name, visit.mem_inclusions⟩

/-- The views above a visit are distinct, and each is the view of the start or in the
vocabulary. -/
theorem Visit.nodup_above {parent : Option Site} {depth : Nat} {above : List String} {s : Site}
    (visit : Visit inclusions maxDepth start parent depth above s) :
    above.Nodup ∧ ∀ view ∈ above, view ∈ start.above ∨ view ∈ vocabulary inclusions start := by
  induction visit with
  | first mem =>
      constructor
      · cases start with
        | view name => exact List.nodup_singleton _
        | references refs => exact List.nodup_nil
      · intro view mem
        exact Or.inl mem
  | deeper outer followed mem ih =>
      obtain ⟨literal, fresh, _⟩ := followed
      constructor
      · exact List.nodup_cons.mpr ⟨fresh, ih.1⟩
      · intro view mem
        rcases List.mem_cons.mp mem with rfl | old
        · exact Or.inr (outer.mem_vocabulary literal)
        · exact ih.2 view old

section Branches

variable {outer : List Reference} {r : Reference}

theorem isGrown_of_mem_inner (unflagged : start.IsUnflagged)
    (branch : (tree inclusions maxDepth start).Branch outer r) {e : String × Reference}
    (mem : e ∈ r.inner) : r.isGrown := by
  have grown := eq_grow_of_branch branch fun _ => unflagged
  by_contra notGrown
  have cut : ¬ Followed maxDepth (outer.length + 1) (outer.map (·.view) ++ start.above) r.site := by
    rwa [← isGrown_grow_iff, ← grown]
  exact not_mem_inner_of_not_followed (congrArg Reference.children grown) cut e mem

/-- All references above another one have been followed. -/
theorem isGrown_of_mem_outer (unflagged : start.IsUnflagged)
    (branch : (tree inclusions maxDepth start).Branch outer r) :
    ∀ p ∈ outer, p.isGrown := by
  induction branch with
  | first mem =>
      intro p there
      exact absurd there List.not_mem_nil
  | inner branch mem ih =>
      intro p there
      rcases List.mem_cons.mp there with rfl | further
      · exact isGrown_of_mem_inner unflagged branch mem
      · exact ih p further

/-- The views followed on a way down are distinct, and differ from the view of the start. -/
theorem nodup_views_branch (unflagged : start.IsUnflagged)
    (branch : (tree inclusions maxDepth start).Branch outer r) :
    (((r :: outer).filter (·.isGrown)).map (·.view) ++ start.above).Nodup := by
  -- Only the last reference of the way may not have been followed.
  have above : outer.filter (·.isGrown) = outer :=
    List.filter_eq_self.mpr (isGrown_of_mem_outer unflagged branch)
  obtain ⟨nodup, _⟩ := (visit_of_branch branch).1.nodup_above
  by_cases grown : r.isGrown
  · have followed := grown
    rw [eq_grow_of_branch branch fun _ => unflagged, isGrown_grow_iff] at followed
    rw [List.filter_cons_of_pos grown, above]
    exact List.nodup_cons.mpr ⟨followed.2.1, nodup⟩
  · rw [List.filter_cons_of_neg grown, above]
    exact nodup

theorem length_le_ncard (finite : (vocabulary inclusions start).Finite) {views : List String}
    (nodup : (views ++ start.above).Nodup)
    (known : ∀ view ∈ views, view ∈ start.above ∨ view ∈ vocabulary inclusions start) :
    views.length ≤ (vocabulary inclusions start).ncard := by
  obtain ⟨distinct, _, apart⟩ := List.nodup_append.mp nodup
  calc
    views.length = views.toFinset.card := (List.toFinset_card_of_nodup distinct).symm
    _ ≤ finite.toFinset.card := by
      apply Finset.card_le_card
      intro view mem
      have there := List.mem_toFinset.mp mem
      have notAbove : view ∉ start.above := fun above => apart view there view above rfl
      exact finite.mem_toFinset.mpr ((known view there).resolve_left notAbove)
    _ = (vocabulary inclusions start).ncard := (Set.ncard_eq_toFinset_card _ finite).symm

/-- Above a reference stand no more references than there are names. -/
theorem length_outer_le (finite : (vocabulary inclusions start).Finite)
    (branch : (tree inclusions maxDepth start).Branch outer r) :
    outer.length ≤ (vocabulary inclusions start).ncard := by
  obtain ⟨nodup, known⟩ := (visit_of_branch branch).1.nodup_above
  have within := length_le_ncard finite nodup fun view mem =>
    known view (List.mem_append_left _ mem)
  rwa [List.length_map] at within

/-- Above a reference that could be followed stand fewer references than there are names. -/
theorem length_outer_lt (finite : (vocabulary inclusions start).Finite)
    (branch : (tree inclusions maxDepth start).Branch outer r) (literal : r.site.isLiteral)
    (fresh : r.view ∉ outer.map (·.view) ++ start.above) :
    outer.length < (vocabulary inclusions start).ncard := by
  have visit := (visit_of_branch branch).1
  obtain ⟨nodup, known⟩ := visit.nodup_above
  have within : ((r :: outer).map (·.view)).length ≤ (vocabulary inclusions start).ncard := by
    apply length_le_ncard finite
    · exact List.nodup_cons.mpr ⟨fresh, nodup⟩
    · intro view mem
      rcases List.mem_cons.mp mem with rfl | further
      · exact Or.inr (visit.mem_vocabulary literal)
      · exact known view (List.mem_append_left _ further)
  rwa [List.length_map] at within

/-- A limit as large as the number of names cuts nothing off. -/
theorem not_isTruncated_of_ncard_le (unflagged : start.IsUnflagged)
    (finite : (vocabulary inclusions start).Finite)
    (large : (vocabulary inclusions start).ncard ≤ maxDepth) {parent : Option Reference}
    (node : (tree inclusions maxDepth start).Node parent r) : r.isTruncated = false := by
  obtain ⟨outer, branch, _⟩ := node.exists_branch
  by_contra marked
  have truncated := eq_true_of_ne_false marked
  rw [eq_grow_of_branch branch fun _ => unflagged, isTruncated_grow_iff] at truncated
  obtain ⟨literal, fresh, deep⟩ := truncated
  have few := length_outer_lt finite branch literal fresh
  omega

end Branches

/-- A limit as large as the number of names gives the tree of every larger one. -/
theorem tree_eq_of_ncard_le (unflagged : start.IsUnflagged)
    (finite : (vocabulary inclusions start).Finite)
    (large : (vocabulary inclusions start).ncard ≤ maxDepth) :
    tree inclusions maxDepth start =
      tree inclusions (vocabulary inclusions start).ncard start := by
  apply tree_eq_of_not_truncated unflagged large
  intro parent r node
  exact not_isTruncated_of_ncard_le unflagged finite (Int.le_refl _) node

/-- No limit gives a larger tree than the number of names does. -/
theorem levelSize_tree_le (unflagged : start.IsUnflagged)
    (finite : (vocabulary inclusions start).Finite) :
    Reference.levelSize (tree inclusions maxDepth start) ≤
      Reference.levelSize (tree inclusions (vocabulary inclusions start).ncard start) := by
  by_cases large : (vocabulary inclusions start).ncard ≤ maxDepth
  · rw [tree_eq_of_ncard_le unflagged finite large]
  · rw [tree_eq_prune_toNat unflagged (Int.le_of_lt (Int.not_le.mp large))]
    exact Level.levelSize_prune_le _ _

/-- What bounds an expansion is the number of names that the start and the templates refer to, not
the depth limit. It ends, after no more rounds than a limit of that number takes. On a way down
the views that are followed are distinct and differ from the view of the start, and the way is at
most one longer than that number. From that number on the limit cuts nothing off and no longer
changes the tree. -/
theorem tree_bounded (inclusions : Inclusions) (start : Start) (unflagged : start.IsUnflagged)
    (finite : (vocabulary inclusions start).Finite) :
    (∀ maxDepth, ∃ n ≤ Reference.levelSize
        (tree inclusions (vocabulary inclusions start).ncard start),
      EndsAfter inclusions maxDepth start n (tree inclusions maxDepth start)) ∧
      (∀ maxDepth outer r, (tree inclusions maxDepth start).Branch outer r →
        (((r :: outer).filter (·.isGrown)).map (·.view)).Nodup ∧
        (∀ view ∈ start.above, view ∉ ((r :: outer).filter (·.isGrown)).map (·.view)) ∧
        (r :: outer).length ≤ (vocabulary inclusions start).ncard + 1) ∧
      ∀ maxDepth : Int, (vocabulary inclusions start).ncard ≤ maxDepth →
        (∀ parent r, (tree inclusions maxDepth start).Node parent r → r.isTruncated = false) ∧
        tree inclusions maxDepth start =
          tree inclusions (vocabulary inclusions start).ncard start := by
  refine ⟨?_, ?_, ?_⟩
  · intro maxDepth
    exact ⟨_, levelSize_tree_le unflagged finite, endsAfter_levelSize inclusions maxDepth start⟩
  · intro maxDepth outer r branch
    obtain ⟨distinct, _, apart⟩ := List.nodup_append.mp (nodup_views_branch unflagged branch)
    refine ⟨distinct, ?_, ?_⟩
    · intro view above there
      exact apart view there view above rfl
    · exact Nat.add_le_add_right (length_outer_le finite branch) 1
  · intro maxDepth large
    constructor
    · intro parent r node
      exact not_isTruncated_of_ncard_le unflagged finite large node
    · exact tree_eq_of_ncard_le unflagged finite large

theorem vocabulary_pageCall :
    vocabulary pageInclusions (.references [pageCall]) = {"page", "menu"} := by
  have page : ViewName.normal "page" = "page" := by decide +kernel
  have menu : ViewName.normal "menu" = "menu" := by decide +kernel
  ext view
  constructor
  · rintro ⟨s, literal, rfl, mem | ⟨name, mem⟩⟩
    · rw [List.mem_singleton.mp mem]
      exact Or.inl page
    · rw [pageInclusions] at mem
      split at mem
      · rcases List.mem_cons.mp mem with rfl | mem
        · exact Or.inr menu
        · rw [List.mem_singleton.mp mem] at literal
          exact absurd literal (by decide)
      · split at mem
        · rw [List.mem_singleton.mp mem]
          exact Or.inl page
        · exact absurd mem List.not_mem_nil
  · rintro (rfl | rfl)
    · exact ⟨pageCall.site, rfl, page, Or.inl (List.mem_singleton.mpr rfl)⟩
    · refine ⟨⟨"menu", "page.blade.php", 1, "@include(", "@include('menu')", true⟩, rfl, menu,
        Or.inr ⟨"page", ?_⟩⟩
      rw [pageInclusions, if_pos rfl]
      exact List.mem_cons_self

theorem tree_bounded_pageCall :
    (Start.references [pageCall]).IsUnflagged ∧
      (vocabulary pageInclusions (.references [pageCall])).Finite ∧
      (∀ maxDepth, ∃ n ≤ 4, EndsAfter pageInclusions maxDepth (.references [pageCall]) n
        (tree pageInclusions maxDepth (.references [pageCall]))) ∧
      (∀ maxDepth outer r, (tree pageInclusions maxDepth (.references [pageCall])).Branch outer r →
        (r :: outer).length ≤ 3) ∧
      ∀ maxDepth : Int, 2 ≤ maxDepth → tree pageInclusions maxDepth (.references [pageCall]) =
        tree pageInclusions 2 (.references [pageCall]) := by
  have finite : (vocabulary pageInclusions (.references [pageCall])).Finite := by
    rw [vocabulary_pageCall]
    exact Set.toFinite _
  have two : (vocabulary pageInclusions (.references [pageCall])).ncard = 2 := by
    rw [vocabulary_pageCall]
    exact Set.ncard_pair (by decide)
  have four : Reference.levelSize (tree pageInclusions 2 (.references [pageCall])) = 4 := by
    decide +kernel
  obtain ⟨ends, ways, large⟩ :=
    tree_bounded pageInclusions (.references [pageCall]) pageCall_isUnflagged finite
  rw [two] at ends ways large
  refine ⟨pageCall_isUnflagged, finite, ?_, ?_, ?_⟩
  · intro maxDepth
    obtain ⟨n, le, ended⟩ := ends maxDepth
    exact ⟨n, le.trans_eq four, ended⟩
  · intro maxDepth outer r branch
    exact (ways maxDepth outer r branch).2.2
  · intro maxDepth le
    exact (large maxDepth le).2

end Expansion
end RenderTrace
