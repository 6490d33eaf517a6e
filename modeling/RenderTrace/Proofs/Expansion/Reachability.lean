import Mathlib.Data.Set.Basic
import RenderTrace.Proofs.Expansion.Nodes

/-!
# The views a tree reaches

The cut of an expansion goes by path: a view is not followed where it stands above
itself. A shortest chain of literal references to a view repeats no view, so no cut
falls on it, and the tree holds exactly the views that such chains reach within the
depth limit.
-/

namespace RenderTrace

/-- The site as if it stood in a template without a name. -/
def Site.withoutFile (s : Site) : Site :=
  { s with file := "" }

/-- What a view includes depends on its normal form alone, but for the label of its template. -/
def Inclusions.DependOnView (inclusions : Inclusions) : Prop :=
  ∀ a b, ViewName.normal a = ViewName.normal b →
    (inclusions a).map Site.withoutFile = (inclusions b).map Site.withoutFile

/-- Sites of one name are all literal or all not. -/
def AgreeOnLiteral (sites : List Site) : Prop :=
  ∀ s ∈ sites, ∀ t ∈ sites, s.name = t.name → s.isLiteral = t.isLiteral

namespace Expansion

/-- A chain of so many literal sites ends at a site: the first stands at the start, each next one
in the template of the one before. -/
inductive Chain (inclusions : Inclusions) (start : Start) : Nat → Site → Prop
  | first {s : Site} (mem : s ∈ start.sites inclusions) (literal : s.isLiteral) :
      Chain inclusions start 1 s
  | next {n : Nat} {s t : Site} (chain : Chain inclusions start n s)
      (mem : t ∈ inclusions s.name) (literal : t.isLiteral) : Chain inclusions start (n + 1) t

variable {inclusions : Inclusions} {maxDepth : Int} {start : Start}

/-- Keying references keeps every name. -/
theorem exists_mem_ofReferences {refs : List Reference} {r : Reference} (mem : r ∈ refs) :
    ∃ e ∈ Level.ofReferences refs, e.2.name = r.name := by
  have key : r.name ∈ (Level.ofReferences refs).map (·.1) := by
    apply Keyed.mem_keys_ofList.mpr
    simpa using ⟨r, mem, rfl⟩
  obtain ⟨e, there, same⟩ := List.mem_map.mp key
  exact ⟨e, there, (Level.key_eq_name there).symm.trans same⟩

theorem exists_mem_ofSites {sites : List Site} {s : Site} (mem : s ∈ sites) :
    ∃ e ∈ Level.ofSites sites, e.2.site.name = s.name :=
  exists_mem_ofReferences (List.mem_map.mpr ⟨s, mem, rfl⟩)

theorem Start.exists_mem_level {s : Site} (mem : s ∈ start.sites inclusions) :
    ∃ e ∈ start.level inclusions, e.2.site.name = s.name := by
  cases start with
  | view name => exact exists_mem_ofSites mem
  | references refs =>
      obtain ⟨r, there, rfl⟩ := List.mem_map.mp mem
      exact exists_mem_ofReferences there

theorem Visit.depth_le {parent : Option Site} {depth : Nat} {above : List String} {s : Site}
    (visit : Visit inclusions maxDepth start parent depth above s) (nonneg : 0 ≤ maxDepth) :
    1 ≤ depth ∧ (depth : Int) ≤ maxDepth + 1 := by
  induction visit with
  | first mem => omega
  | deeper outer followed mem ih =>
      have within := followed.2.2
      omega

/-- A literal site that is visited ends a chain as long as its depth. -/
theorem Visit.chain {parent : Option Site} {depth : Nat} {above : List String} {s : Site}
    (visit : Visit inclusions maxDepth start parent depth above s) (literal : s.isLiteral) :
    Chain inclusions start depth s := by
  induction visit with
  | first mem => exact Chain.first (start.site_mem_of_mem_level mem) literal
  | deeper outer followed mem ih =>
      exact Chain.next (ih followed.1) (site_mem_of_mem_ofSites mem) literal

theorem Chain.one_le {n : Nat} {s : Site} (chain : Chain inclusions start n s) : 1 ≤ n := by
  cases chain <;> omega

/-- Views that are written differently include the same sites, up to the label. -/
theorem exists_mem_of_normal_eq (store : inclusions.DependOnView) {a b : String} {s : Site}
    (same : ViewName.normal a = ViewName.normal b) (mem : s ∈ inclusions a) :
    ∃ t ∈ inclusions b, t.name = s.name ∧ t.isLiteral = s.isLiteral := by
  have there : s.withoutFile ∈ (inclusions b).map Site.withoutFile := by
    rw [← store a b same]
    exact List.mem_map.mpr ⟨s, mem, rfl⟩
  obtain ⟨t, given, equal⟩ := List.mem_map.mp there
  have name : t.withoutFile.name = s.withoutFile.name := by rw [equal]
  have literal : t.withoutFile.isLiteral = s.withoutFile.isLiteral := by rw [equal]
  exact ⟨t, given, name, literal⟩

/-- No shorter chain ends at the view of a site. -/
def Shortest (inclusions : Inclusions) (start : Start) (n : Nat) (s : Site) : Prop :=
  ∀ j < n, ∀ t, Chain inclusions start j t → ViewName.normal t.name ≠ ViewName.normal s.name

/-- A chain to a view from which a shorter chain could be continued is not a shortest one. -/
theorem Shortest.init (store : inclusions.DependOnView) {n : Nat} {s t : Site}
    (shortest : Shortest inclusions start (n + 1) t) (mem : t ∈ inclusions s.name)
    (literal : t.isLiteral) : Shortest inclusions start n s := by
  intro j less u chain same
  obtain ⟨v, there, name, equal⟩ := exists_mem_of_normal_eq store same.symm mem
  refine shortest (j + 1) (by omega) v (Chain.next chain there (equal.trans literal)) ?_
  rw [name]

/-- The end of a shortest chain within the depth limit is visited, under the same name, and every
view above it is the start or the end of a shorter chain. -/
theorem exists_visit_of_shortest (store : inclusions.DependOnView)
    (startAgrees : AgreeOnLiteral (start.sites inclusions))
    (templatesAgree : ∀ name, AgreeOnLiteral (inclusions name)) {n : Nat} {s : Site}
    (chain : Chain inclusions start n s) (shortest : Shortest inclusions start n s)
    (within : (n : Int) ≤ maxDepth + 1) :
    ∃ parent above t, Visit inclusions maxDepth start parent n above t ∧ t.name = s.name ∧
      t.isLiteral ∧ ∀ view ∈ above, view ∈ start.above ∨
        ∃ j < n, ∃ u, Chain inclusions start j u ∧ ViewName.normal u.name = view := by
  induction chain with
  | @first s mem literal =>
      obtain ⟨e, there, name⟩ := start.exists_mem_level mem
      have agrees := startAgrees _ (start.site_mem_of_mem_level there) s mem name
      exact ⟨none, start.above, e.2.site, Visit.first there, name, agrees.trans literal,
        fun view above => Or.inl above⟩
  | @next n s t chain mem literal ih =>
      have shorter := shortest.init store mem literal
      obtain ⟨parent, above, s', visit, name, literal', origin⟩ := ih shorter (by omega)
      have fresh : ViewName.normal s'.name ∉ above := by
        intro repeated
        rw [name] at repeated
        rcases origin _ repeated with atStart | ⟨j, less, u, chain', same⟩
        · -- The start itself holds what the template of `s` holds, one step from the start.
          cases start with
          | references refs => exact List.not_mem_nil atStart
          | view view =>
              have same := List.mem_singleton.mp atStart
              obtain ⟨v, there, name', equal⟩ := exists_mem_of_normal_eq store same mem
              have long := chain.one_le
              refine shortest 1 (by omega) v (Chain.first there (equal.trans literal)) ?_
              rw [name']
        · exact shorter j less u chain' same
      have followed : Followed maxDepth n above s' := ⟨literal', fresh, by omega⟩
      rw [← name] at mem
      obtain ⟨e, there, name'⟩ := exists_mem_ofSites mem
      have agrees := templatesAgree _ _ (site_mem_of_mem_ofSites there) t mem name'
      refine ⟨some s', _, e.2.site, Visit.deeper visit followed there, name',
        agrees.trans literal, ?_⟩
      intro view mem'
      rcases List.mem_cons.mp mem' with rfl | old
      · exact Or.inr ⟨n, by omega, s, chain, by rw [name]⟩
      · rcases origin view old with atStart | ⟨j, less, u, chain', same⟩
        · exact Or.inl atStart
        · exact Or.inr ⟨j, by omega, u, chain', same⟩

theorem Chain.exists_shortest {n : Nat} {s : Site} (chain : Chain inclusions start n s) :
    ∃ k ≤ n, ∃ t, Chain inclusions start k t ∧ ViewName.normal t.name = ViewName.normal s.name ∧
      Shortest inclusions start k t := by
  induction n using Nat.strongRecOn generalizing s with
  | ind n ih =>
      by_cases shortest : Shortest inclusions start n s
      · exact ⟨n, le_refl n, s, chain, rfl, shortest⟩
      · simp only [Shortest, not_forall, not_not] at shortest
        obtain ⟨j, less, u, chain', same⟩ := shortest
        obtain ⟨k, le, t, found, equal, least⟩ := ih j less chain'
        exact ⟨k, by omega, t, found, equal.trans same, least⟩

/-- The views of the literal nodes of a tree are those at the ends of chains of literal references
that are at most one longer than the depth limit. -/
theorem literal_views_tree (inclusions : Inclusions) (maxDepth : Int) (start : Start)
    (store : inclusions.DependOnView) (nonneg : 0 ≤ maxDepth)
    (startAgrees : AgreeOnLiteral (start.sites inclusions))
    (templatesAgree : ∀ name, AgreeOnLiteral (inclusions name)) :
    {view | ∃ parent r, (tree inclusions maxDepth start).Node parent r ∧ r.site.isLiteral ∧
        ViewName.normal r.name = view} =
      {view | ∃ (n : Nat) (s : Site), 1 ≤ n ∧ (n : Int) ≤ maxDepth + 1 ∧ Chain inclusions start n s ∧
        ViewName.normal s.name = view} := by
  ext view
  constructor
  · rintro ⟨parent, r, node, literal, rfl⟩
    obtain ⟨depth, above, visit, _⟩ := exists_visit_of_node node
    obtain ⟨low, high⟩ := visit.depth_le nonneg
    exact ⟨depth, r.site, low, high, visit.chain literal, rfl⟩
  · rintro ⟨n, s, _, within, chain, rfl⟩
    obtain ⟨k, le, t, chain', same, shortest⟩ := chain.exists_shortest
    have near : (k : Int) ≤ maxDepth + 1 := by omega
    obtain ⟨parent, above, u, visit, name, literal, _⟩ :=
      exists_visit_of_shortest store startAgrees templatesAgree chain' shortest near
    obtain ⟨outer, r, node, rfl, _⟩ := exists_node_of_visit visit
    refine ⟨outer, r, node, literal, ?_⟩
    rw [← same, ← name]
    rfl

/-- Templates that include each other under two spellings of one name, followed from a view. -/
theorem literal_views_tree_mutual :
    let site (name : String) : Site := ⟨name, "", 1, "@include(", "", true⟩
    let inclusions : Inclusions := fun name =>
      if ViewName.normal name = "home" then [site "a/b", site "a.b"]
      else if ViewName.normal name = "a.b" then [site "home", site "menu"] else []
    inclusions.DependOnView ∧ (0 : Int) ≤ 2 ∧
      AgreeOnLiteral ((Start.view "home").sites inclusions) ∧
      (∀ name, AgreeOnLiteral (inclusions name)) ∧
      {view | ∃ parent r, (tree inclusions 2 (.view "home")).Node parent r ∧
          r.site.isLiteral ∧ ViewName.normal r.name = view} =
        {view | ∃ (n : Nat) (s : Site), 1 ≤ n ∧ (n : Int) ≤ 2 + 1 ∧
          Chain inclusions (.view "home") n s ∧ ViewName.normal s.name = view} := by
  intro site inclusions
  have store : inclusions.DependOnView := by
    intro a b same
    simp only [inclusions, same]
  have literal : ∀ name, ∀ s ∈ inclusions name, s.isLiteral = true := by
    intro name s mem
    simp only [inclusions] at mem
    split at mem
    · rcases List.mem_cons.mp mem with rfl | mem
      · rfl
      · rw [List.mem_singleton.mp mem]
    · split at mem
      · rcases List.mem_cons.mp mem with rfl | mem
        · rfl
        · rw [List.mem_singleton.mp mem]
      · exact absurd mem List.not_mem_nil
  have agree : ∀ name, AgreeOnLiteral (inclusions name) := by
    intro name s hs t ht _
    rw [literal name s hs, literal name t ht]
  exact ⟨store, by decide, agree "home", agree,
    literal_views_tree inclusions 2 (.view "home") store (by decide) (agree "home") agree⟩

end Expansion
end RenderTrace
