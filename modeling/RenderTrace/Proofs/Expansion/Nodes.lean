import RenderTrace.Proofs.Expansion.Stack
import RenderTrace.Proofs.Reference.Node

/-!
# The nodes of an expanded tree

A node of the expanded tree is a visit of the recursion: a site met at some depth
below some views. So what holds of a tree node follows by induction on visits, and
in particular no node is left unexpanded.
-/

namespace RenderTrace

/-- The view a reference names. -/
def Reference.view (r : Reference) : String :=
  ViewName.normal r.name

namespace Expansion

/-- The expansion comes to a site at a depth and below the given views; `parent` is the site in
whose template it stands, and there is none on the first level. -/
inductive Visit (inclusions : Inclusions) (maxDepth : Int) (start : Start) :
    Option Site → Nat → List String → Site → Prop
  | first {key : String} {r : Reference} (mem : (key, r) ∈ start.level inclusions) :
      Visit inclusions maxDepth start none 1 start.above r.site
  | deeper {parent : Option Site} {depth : Nat} {above : List String} {s : Site}
      {key : String} {r : Reference} (outer : Visit inclusions maxDepth start parent depth above s)
      (followed : Followed maxDepth depth above s)
      (mem : (key, r) ∈ Level.ofSites (inclusions s.name)) :
      Visit inclusions maxDepth start (some s) (depth + 1) (ViewName.normal s.name :: above) r.site

/-- The sites an expansion starts with. -/
def Start.sites (inclusions : Inclusions) : Start → List Site
  | .view name => inclusions name
  | .references refs => refs.map (·.site)

variable {inclusions : Inclusions} {maxDepth : Int} {start : Start}

theorem site_mem_of_mem_ofSites {sites : List Site} {e : String × Reference}
    (mem : e ∈ Level.ofSites sites) : e.2.site ∈ sites := by
  obtain ⟨s, given, rfl⟩ := Level.exists_of_mem_ofSites mem
  exact given

theorem Start.site_mem_of_mem_level {e : String × Reference}
    (mem : e ∈ start.level inclusions) : e.2.site ∈ start.sites inclusions := by
  cases start with
  | view name => exact site_mem_of_mem_ofSites mem
  | references refs =>
      obtain ⟨r, there, rfl⟩ := Level.exists_of_mem_ofReferences mem
      exact List.mem_map.mpr ⟨r, there, rfl⟩

theorem Visit.mem_start {depth : Nat} {above : List String} {s : Site}
    (visit : Visit inclusions maxDepth start none depth above s) : s ∈ start.sites inclusions := by
  cases visit with
  | first mem => exact start.site_mem_of_mem_level mem

theorem Visit.mem_inclusions {p : Site} {depth : Nat} {above : List String} {s : Site}
    (visit : Visit inclusions maxDepth start (some p) depth above s) : s ∈ inclusions p.name := by
  cases visit with
  | deeper outer followed mem => exact site_mem_of_mem_ofSites mem

/-- The first level of the tree holds the references of the start, filled in. -/
theorem mem_tree_iff {e : String × Reference} :
    e ∈ tree inclusions maxDepth start ↔ ∃ c ∈ start.level inclusions,
      (c.1, c.2.filled (grow inclusions maxDepth 1 start.above c.2.site)) = e := by
  rw [tree_eq_filled, List.mem_map]

theorem mem_inner_of_followed {depth : Nat} {above : List String} {s : Site} {p : Reference}
    (grown : p.children = (grow inclusions maxDepth depth above s).children)
    (followed : Followed maxDepth depth above s) {e : String × Reference} :
    e ∈ p.inner ↔ ∃ c ∈ Level.ofSites (inclusions s.name), (c.1, grow inclusions maxDepth
      (depth + 1) (ViewName.normal s.name :: above) c.2.site) = e := by
  rw [Reference.inner, grown, grow_of_followed followed, Option.getD_some, growLevel,
    List.mem_map]

theorem not_mem_inner_of_not_followed {depth : Nat} {above : List String} {s : Site}
    {p : Reference} (grown : p.children = (grow inclusions maxDepth depth above s).children)
    (cut : ¬ Followed maxDepth depth above s) (e : String × Reference) : e ∉ p.inner := by
  rw [Reference.inner, grown, children_grow_of_not_followed cut]
  exact List.not_mem_nil

/-- The level that stands below the given references before it is expanded; with none given, the
first level. -/
def Start.levelBelow (inclusions : Inclusions) (start : Start) : List Reference → Level
  | [] => start.level inclusions
  | parent :: _ => Level.ofSites (inclusions parent.name)

/-- A reference of the tree comes from a visit below the views of the branch that leads to it, and
is what the recursion makes of it; only on the first level can it have had marks before. -/
theorem visit_of_branch {outer : List Reference} {r : Reference}
    (branch : (tree inclusions maxDepth start).Branch outer r) :
    Visit inclusions maxDepth start (outer.head?.map (·.site)) (outer.length + 1)
        (outer.map (·.view) ++ start.above) r.site ∧
      ∃ e ∈ start.levelBelow inclusions outer, r = e.2.filled (grow inclusions maxDepth
        (outer.length + 1) (outer.map (·.view) ++ start.above) r.site) := by
  induction branch with
  | first mem =>
      obtain ⟨e, there, same⟩ := mem_tree_iff.mp mem
      cases same
      have visit : Visit inclusions maxDepth start none 1 start.above e.2.site := Visit.first there
      exact ⟨visit, e, there, rfl⟩
  | @inner outer parent r key branch mem ih =>
      obtain ⟨visit, e, _, grown⟩ := ih
      have children := congrArg Reference.children grown
      -- The parent has something below it, so the other case is empty.
      by_cases followed : Followed maxDepth (outer.length + 1)
          (outer.map (·.view) ++ start.above) parent.site
      · obtain ⟨c, there, same⟩ := (mem_inner_of_followed children followed).mp mem
        cases same
        obtain ⟨s, _, rfl⟩ := Level.exists_of_mem_ofSites there
        rw [site_grow]
        refine ⟨Visit.deeper visit followed there, _, there, ?_⟩
        exact (Reference.filled_of_unflagged rfl rfl site_grow).symm
      · exact absurd mem (not_mem_inner_of_not_followed children followed _)

/-- Every node of the tree comes from a visit, and what is below it from the recursion. -/
theorem exists_visit_of_node {parent : Option Reference} {r : Reference}
    (node : (tree inclusions maxDepth start).Node parent r) :
    ∃ depth above, Visit inclusions maxDepth start (parent.map (·.site)) depth above r.site ∧
      r.children = (grow inclusions maxDepth depth above r.site).children := by
  obtain ⟨outer, branch, rfl⟩ := node.exists_branch
  obtain ⟨visit, _, _, grown⟩ := visit_of_branch branch
  have children := congrArg Reference.children grown
  exact ⟨_, _, visit, children⟩

/-- Every visit leaves a node in the tree. -/
theorem exists_node_of_visit {parent : Option Site} {depth : Nat} {above : List String} {s : Site}
    (visit : Visit inclusions maxDepth start parent depth above s) :
    ∃ outer r, (tree inclusions maxDepth start).Node outer r ∧ r.site = s ∧
      r.children = (grow inclusions maxDepth depth above s).children := by
  induction visit with
  | @first key r mem =>
      have there : (key, r.filled (grow inclusions maxDepth 1 start.above r.site)) ∈
          tree inclusions maxDepth start :=
        mem_tree_iff.mpr ⟨(key, r), mem, rfl⟩
      exact ⟨none, _, Level.Node.first there, rfl, rfl⟩
  | @deeper parent depth above s key r outer followed mem ih =>
      obtain ⟨_, p, node, site, grown⟩ := ih
      have there := (mem_inner_of_followed grown followed).mpr ⟨(key, r), mem, rfl⟩
      exact ⟨some p, _, Level.Node.inner node there, site_grow, rfl⟩

/-- No reference that the expansion starts with carries a mark. -/
def Start.IsUnflagged : Start → Prop
  | .view _ => True
  | .references refs => ∀ r ∈ refs, r.isCycle = false ∧ r.isTruncated = false

theorem Start.unflagged_of_mem_level (unflagged : start.IsUnflagged) {e : String × Reference}
    (mem : e ∈ start.level inclusions) : e.2.isCycle = false ∧ e.2.isTruncated = false := by
  cases start with
  | view name =>
      obtain ⟨s, _, rfl⟩ := Level.exists_of_mem_ofSites mem
      exact ⟨rfl, rfl⟩
  | references refs =>
      obtain ⟨r, there, rfl⟩ := Level.exists_of_mem_ofReferences mem
      exact unflagged r there

theorem Start.unflagged_of_mem_levelBelow {outer : List Reference}
    (unflagged : outer = [] → start.IsUnflagged) {e : String × Reference}
    (mem : e ∈ start.levelBelow inclusions outer) :
    e.2.isCycle = false ∧ e.2.isTruncated = false := by
  cases outer with
  | nil => exact start.unflagged_of_mem_level (unflagged rfl) mem
  | cons parent outer =>
      obtain ⟨s, _, rfl⟩ := Level.exists_of_mem_ofSites mem
      exact ⟨rfl, rfl⟩

/-- A reference of the tree that had no marks before is what the recursion makes of its site. -/
theorem eq_grow_of_branch {outer : List Reference} {r : Reference}
    (branch : (tree inclusions maxDepth start).Branch outer r)
    (unflagged : outer = [] → start.IsUnflagged) :
    r = grow inclusions maxDepth (outer.length + 1) (outer.map (·.view) ++ start.above) r.site := by
  obtain ⟨_, e, mem, grown⟩ := visit_of_branch branch
  obtain ⟨cycle, truncated⟩ := start.unflagged_of_mem_levelBelow unflagged mem
  have site := congrArg Reference.site grown
  exact grown.trans (Reference.filled_of_unflagged cycle truncated (site_grow.trans site))

/-- With no marks to keep, the tree is its first level expanded by the recursion. -/
theorem tree_eq_growLevel (unflagged : start.IsUnflagged) :
    tree inclusions maxDepth start =
      growLevel inclusions maxDepth 1 start.above (start.level inclusions) := by
  rw [tree_eq_filled]
  apply List.map_congr_left
  intro e mem
  obtain ⟨cycle, truncated⟩ := start.unflagged_of_mem_level unflagged mem
  rw [Reference.filled_of_unflagged cycle truncated site_grow]

/-- The second reference to the page stands in the place of the first. -/
example :
    let site (name : String) (line : Int) : Site := ⟨name, "C", line, "view(", "", true⟩
    (Level.keyed [(site "page" 7).reference, (site "menu" 8).reference,
        (site "page" 9).reference]).map (fun e => (e.1, e.2.site.lineNumber)) =
      [("page", 9), ("menu", 8)] := by
  decide

end Expansion
end RenderTrace
