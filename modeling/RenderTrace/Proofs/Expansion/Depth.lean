import RenderTrace.Proofs.Expansion.Nodes
import RenderTrace.Proofs.Reference.Prune

/-!
# The depth limit

A limit acts on one level only, the first one that lies deeper: a tree under a
smaller limit is the tree under a larger one, pruned there. And what counts is how
far a reference lies above the limit, so a view expanded as the start and the same
view expanded from a reference to it have one tree, at limits that differ by one.
-/

namespace RenderTrace.Expansion

variable {inclusions : Inclusions} {start : Start} {m n : Int} {depth : Nat} {above : List String}
  {s : Site}

/-- The limit has no say in what is followed above it. -/
theorem followed_iff_of_le (within : (depth : Int) ≤ m) (le : m ≤ n) :
    Followed m depth above s ↔ Followed n depth above s := by
  constructor
  · rintro ⟨literal, fresh, _⟩
    exact ⟨literal, fresh, Int.le_trans within le⟩
  · rintro ⟨literal, fresh, _⟩
    exact ⟨literal, fresh, within⟩

/-- A site within the limit that is not followed becomes the same under every limit. -/
theorem grow_eq_of_not_followed (n : Int) (within : (depth : Int) ≤ m)
    (cut : ¬ Followed m depth above s) :
    grow inclusions m depth above s = grow inclusions n depth above s := by
  by_cases literal : s.isLiteral
  · have repeated : ViewName.normal s.name ∈ above := by
      by_contra fresh
      exact cut ⟨literal, fresh, within⟩
    rw [grow_of_mem_above literal repeated, grow_of_mem_above literal repeated]
  · have other := Bool.eq_false_iff.mpr literal
    rw [grow_of_not_literal other, grow_of_not_literal other]

/-- Deeper than a limit a site becomes what it is under any other, cut off. -/
theorem grow_eq_cutOff (n : Int) (deep : m < depth) :
    grow inclusions m depth above s = (grow inclusions n depth above s).cutOff := by
  by_cases literal : s.isLiteral
  · by_cases repeated : ViewName.normal s.name ∈ above
    · rw [grow_of_mem_above literal repeated, grow_of_mem_above literal repeated]
      simp [Reference.cutOff]
    · rw [grow_of_lt literal repeated deep]
      by_cases other : n < depth
      · rw [grow_of_lt literal repeated other]
        simp [Reference.cutOff]
      · rw [grow_of_followed ⟨literal, repeated, Int.not_lt.mp other⟩]
        simp [Reference.cutOff, literal]
  · have other := Bool.eq_false_iff.mpr literal
    rw [grow_of_not_literal other, grow_of_not_literal other]
    simp [Reference.cutOff, other]

/-- A level under a limit is the level under a larger one, pruned so far below as the limit lies. -/
theorem growLevel_eq_prune (le : m ≤ n) (depth : Nat) (above : List String) (level : Level) :
    growLevel inclusions m depth above level =
      (growLevel inclusions n depth above level).prune (m + 1 - depth).toNat := by
  -- By induction on the number of levels that are left above the cut.
  induction levels : (m + 1 - depth).toNat generalizing depth above level with
  | zero =>
      rw [Level.prune, growLevel, growLevel, List.map_map]
      apply List.map_congr_left
      intro e _
      exact congrArg (Prod.mk e.1) (grow_eq_cutOff n (by omega))
  | succ k ih =>
      rw [Level.prune, growLevel, growLevel, List.map_map]
      apply List.map_congr_left
      intro e _
      apply congrArg (Prod.mk e.1)
      have within : (depth : Int) ≤ m := by omega
      by_cases followed : Followed m depth above e.2.site
      · have also := (followed_iff_of_le within le).mp followed
        rw [grow_of_followed followed, grow_of_followed also, ih (depth + 1) _ _ (by omega)]
        rfl
      · have cut := mt (followed_iff_of_le within le).mpr followed
        rw [grow_eq_of_not_followed n within followed]
        exact (Level.mapChildren_prune_of_leaf (children_grow_of_not_followed cut) k).symm

theorem tree_eq_prune_toNat (unflagged : start.IsUnflagged) (le : m ≤ n) :
    tree inclusions m start = (tree inclusions n start).prune m.toNat := by
  rw [tree_eq_growLevel unflagged, tree_eq_growLevel unflagged, growLevel_eq_prune le]
  congr 2
  omega

/-- The first level lies deeper than every limit below one. -/
theorem tree_eq_tree_zero (unflagged : start.IsUnflagged) (nonpos : m ≤ 0) :
    tree inclusions m start = tree inclusions 0 start := by
  calc
    tree inclusions m start = (tree inclusions 0 start).prune m.toNat :=
      tree_eq_prune_toNat unflagged nonpos
    _ = (tree inclusions 0 start).prune (0 : Int).toNat := by
      rw [Int.toNat_of_nonpos nonpos, Int.toNat_zero]
    _ = tree inclusions 0 start := (tree_eq_prune_toNat unflagged (Int.le_refl 0)).symm

/-- A limit that cuts nothing off gives the tree of every larger one. -/
theorem tree_eq_of_not_truncated (unflagged : start.IsUnflagged) (le : m ≤ n)
    (whole : ∀ parent r, (tree inclusions m start).Node parent r → r.isTruncated = false) :
    tree inclusions n start = tree inclusions m start := by
  have pruned : tree inclusions m start = (tree inclusions n start).prune m.toNat :=
    tree_eq_prune_toNat unflagged le
  rw [pruned] at whole
  rw [pruned, Level.prune_eq_self whole]

/-- A smaller limit only prunes the tree of a larger one, limits below zero are the limit zero,
and a limit under which nothing is truncated gives the tree of every larger one. -/
theorem tree_eq_prune (inclusions : Inclusions) (start : Start) (unflagged : start.IsUnflagged) :
    (∀ (m : Nat) (n : Int), m ≤ n →
        tree inclusions m start = (tree inclusions n start).prune m) ∧
      (∀ m < 0, tree inclusions m start = tree inclusions 0 start) ∧
      (∀ m n, m ≤ n →
        (∀ parent r, (tree inclusions m start).Node parent r → r.isTruncated = false) →
        tree inclusions n start = tree inclusions m start) := by
  refine ⟨?_, ?_, ?_⟩
  · intro m n le
    exact tree_eq_prune_toNat unflagged le
  · intro m negative
    exact tree_eq_tree_zero unflagged (Int.le_of_lt negative)
  · intro m n le whole
    exact tree_eq_of_not_truncated unflagged le whole

/-- A page that includes a menu and a view named by a variable, and whose menu includes the page
again. -/
def pageInclusions : Inclusions := fun name =>
  if name = "page" then
    [⟨"menu", "page.blade.php", 1, "@include(", "@include('menu')", true⟩,
      ⟨"$part", "page.blade.php", 2, "@include(", "@include($part)", false⟩]
  else if name = "menu" then
    [⟨"page", "menu.blade.php", 1, "@include(", "@include('page')", true⟩]
  else []

/-- A call that renders the page. -/
def pageCall : Reference :=
  Site.reference ⟨"page", "C", 7, "view(", "view('page')", true⟩

theorem pageCall_isUnflagged : (Start.references [pageCall]).IsUnflagged := by
  intro r mem
  rw [List.mem_singleton.mp mem]
  exact ⟨rfl, rfl⟩

theorem tree_eq_prune_pageCall :
    (Start.references [pageCall]).IsUnflagged ∧
      tree pageInclusions 1 (.references [pageCall]) =
        (tree pageInclusions 8 (.references [pageCall])).prune 1 ∧
      tree pageInclusions (-3) (.references [pageCall]) =
        tree pageInclusions 0 (.references [pageCall]) ∧
      (∀ parent r, (tree pageInclusions 2 (.references [pageCall])).Node parent r →
        r.isTruncated = false) ∧
      tree pageInclusions 8 (.references [pageCall]) =
        tree pageInclusions 2 (.references [pageCall]) := by
  have none_truncated : (tree pageInclusions 2 (.references [pageCall])).truncated = [] :=
    List.isEmpty_iff.mp (by decide +kernel)
  have whole : ∀ parent r, (tree pageInclusions 2 (.references [pageCall])).Node parent r →
      r.isTruncated = false :=
    fun _ _ node => node.isTruncated_eq_false none_truncated
  obtain ⟨pruned, negative, grown⟩ :=
    tree_eq_prune pageInclusions (.references [pageCall]) pageCall_isUnflagged
  exact ⟨pageCall_isUnflagged, pruned 1 8 (by decide), negative (-3) (by decide), whole,
    grown 2 8 (by decide) whole⟩

/-- Depth and limit count together. -/
theorem grow_succ (m : Int) (depth : Nat) (above : List String) (s : Site) :
    grow inclusions (m + 1) (depth + 1) above s = grow inclusions m depth above s := by
  fun_induction grow inclusions m depth above s with
  | case1 depth above s notLiteral =>
      exact grow_of_not_literal (by simpa using notLiteral)
  | case2 depth above s literal repeated =>
      exact grow_of_mem_above (by simpa using literal) repeated
  | case3 depth above s literal fresh deep =>
      exact grow_of_lt (by simpa using literal) fresh (by push_cast; omega)
  | case4 depth above s literal fresh within ih =>
      have followed : Followed (m + 1) (depth + 1) above s :=
        ⟨by simpa using literal, fresh, by push_cast; omega⟩
      rw [grow_of_followed followed, growLevel, Level.ofSites, Level.ofReferences_eq_keyed]
      congr 2
      apply List.map_congr_left
      intro e _
      exact congrArg (Prod.mk e.1) (ih e.2)

theorem growLevel_succ (m : Int) (depth : Nat) (above : List String) (level : Level) :
    growLevel inclusions (m + 1) (depth + 1) above level =
      growLevel inclusions m depth above level := by
  apply List.map_congr_left
  intro e _
  exact congrArg (Prod.mk e.1) (grow_succ m depth above e.2.site)

/-- What is below a reference that an expansion starts with is the tree of its view, under a limit
that is one smaller. -/
theorem tree_references_singleton (inclusions : Inclusions) (maxDepth : Int)
    (nonneg : 0 ≤ maxDepth) (r : Reference) (literal : r.site.isLiteral)
    (cycle : r.isCycle = false) (truncated : r.isTruncated = false) :
    tree inclusions (maxDepth + 1) (.references [r]) =
      [(r.name, { r with children := some (tree inclusions maxDepth (.view r.name)) })] := by
  have unflagged : (Start.references [r]).IsUnflagged := by
    intro q mem
    rw [List.mem_singleton.mp mem]
    exact ⟨cycle, truncated⟩
  have followed : Followed (maxDepth + 1) 1 [] r.site :=
    ⟨literal, List.not_mem_nil, by push_cast; omega⟩
  have viewUnflagged : (Start.view r.name).IsUnflagged := trivial
  have below : tree inclusions maxDepth (.view r.name) =
      growLevel inclusions maxDepth 1 [r.view] (Level.ofSites (inclusions r.name)) :=
    tree_eq_growLevel viewUnflagged
  calc
    tree inclusions (maxDepth + 1) (.references [r]) =
        [(r.name, grow inclusions (maxDepth + 1) 1 [] r.site)] := tree_eq_growLevel unflagged
    _ = [(r.name, ⟨r.site, false, false, some (growLevel inclusions (maxDepth + 1) (1 + 1) [r.view]
          (Level.ofSites (inclusions r.name)))⟩)] := by
      rw [grow_of_followed followed]
      rfl
    _ = [(r.name, { r with children := some (tree inclusions maxDepth (.view r.name)) })] := by
      rw [growLevel_succ, below, cycle, truncated]

theorem tree_references_singleton_pageCall :
    (0 : Int) ≤ 1 ∧ pageCall.site.isLiteral ∧ pageCall.isCycle = false ∧
      pageCall.isTruncated = false ∧
      tree pageInclusions 2 (.references [pageCall]) =
        [("page", { pageCall with children := some (tree pageInclusions 1 (.view "page")) })] :=
  ⟨by decide, rfl, rfl, rfl,
    tree_references_singleton pageInclusions 1 (by decide) pageCall rfl rfl rfl⟩

end RenderTrace.Expansion
