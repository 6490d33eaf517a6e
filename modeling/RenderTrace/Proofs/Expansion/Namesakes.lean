import RenderTrace.Proofs.Expansion.Depth

/-!
# References of one name

Of the references of one name that stand on one level only the last is kept, in the
place of the first. So it alone decides whether the template of that name is looked
into: a literal reference at the end brings in all that the template includes,
whatever came before it, and a reference that is not literal at the end leaves nothing
below, even after literal ones.
-/

namespace RenderTrace

namespace Expansion

/-- The sites that the level below the given references is keyed from; with none given, those that
the expansion starts with. -/
def Start.sitesBelow (inclusions : Inclusions) (start : Start) : List Reference → List Site
  | [] => start.sites inclusions
  | parent :: _ => inclusions parent.name

/-- The views on the path above the level below the given references. -/
def Start.path (start : Start) (outer : List Reference) : List String :=
  outer.map (·.view) ++ start.above

/-- A level of the tree that the expansion filled in: the first one, or the one below a reference
that was followed. -/
inductive Expanded (inclusions : Inclusions) (maxDepth : Int) (start : Start) :
    List Reference → Level → Prop
  | first : Expanded inclusions maxDepth start [] (tree inclusions maxDepth start)
  | inner {outer : List Reference} {parent : Reference}
      (branch : (tree inclusions maxDepth start).Branch outer parent)
      (followed : Followed maxDepth (outer.length + 1) (start.path outer) parent.site) :
      Expanded inclusions maxDepth start (parent :: outer) parent.inner

variable {inclusions : Inclusions} {maxDepth : Int} {start : Start}

/-- Before it is expanded, a level holds under a name the last site of that name. -/
theorem site_get?_levelBelow (outer : List Reference) (name : String) :
    (Keyed.get? name (start.levelBelow inclusions outer)).map (·.site) =
      ((start.sitesBelow inclusions outer).filter fun s => s.name = name).getLast? := by
  have keyed : ∀ refs : List Reference,
      (Keyed.get? name (Level.ofReferences refs)).map (·.site) =
        ((refs.map (·.site)).filter fun s => s.name = name).getLast? := by
    intro refs
    rw [Level.get?_ofReferences, List.filter_map, List.getLast?_map]
    rfl
  have unexpanded : ∀ sites : List Site,
      (Keyed.get? name (Level.ofSites sites)).map (·.site) =
        (sites.filter fun s => s.name = name).getLast? := by
    intro sites
    rw [Level.ofSites, keyed, List.map_map]
    exact congrArg (fun sites => (sites.filter fun s => s.name = name).getLast?) (List.map_id sites)
  cases outer with
  | nil =>
      cases start with
      | view other => exact unexpanded _
      | references refs => exact keyed refs
  | cons parent outer => exact unexpanded _

/-- An expanded level is the level that was found there, each reference filled by the recursion. -/
theorem Expanded.eq_filled {outer : List Reference} {level : Level}
    (expanded : Expanded inclusions maxDepth start outer level) :
    level = (start.levelBelow inclusions outer).map fun e => (e.1, e.2.filled
      (grow inclusions maxDepth (outer.length + 1) (start.path outer) e.2.site)) := by
  cases expanded with
  | first => exact tree_eq_filled inclusions maxDepth start
  | @inner outer parent branch followed =>
      obtain ⟨_, _, _, grown⟩ := visit_of_branch branch
      have children := congrArg Reference.children grown
      have below : parent.inner = growLevel inclusions maxDepth (outer.length + 1 + 1)
          (start.path (parent :: outer)) (Level.ofSites (inclusions parent.name)) := by
        rw [Reference.inner, children]
        exact congrArg (fun r : Reference => r.children.getD []) (grow_of_followed followed)
      rw [below, growLevel]
      apply List.map_congr_left
      intro e mem
      obtain ⟨s, _, rfl⟩ := Level.exists_of_mem_ofSites mem
      exact congrArg (Prod.mk s.name) (Reference.filled_of_unflagged rfl rfl site_grow).symm

/-- The last reference of a name decides. On an expanded level within the limit, and for a name that
does not stand on the path above it: where the last of the references of that name is literal, the
entry of that name has below it the level keyed from its template, whatever came before; where it is
not, the entry has nothing below it. -/
theorem children_get?_expanded (inclusions : Inclusions) (maxDepth : Int) (start : Start)
    {outer : List Reference} {level : Level} {name : String} {last : Site}
    (expanded : Expanded inclusions maxDepth start outer level)
    (within : ((outer.length + 1 : Nat) : Int) ≤ maxDepth)
    (fresh : ViewName.normal name ∉ start.path outer)
    (isLast : ((start.sitesBelow inclusions outer).filter fun s => s.name = name).getLast? =
      some last) :
    (Keyed.get? name level).map (·.children) = some (some
      (if last.isLiteral then
        growLevel inclusions maxDepth (outer.length + 2) (ViewName.normal name :: start.path outer)
          (Level.ofSites (inclusions name))
      else [])) := by
  obtain ⟨r, found, site⟩ := Option.map_eq_some_iff.mp
    ((site_get?_levelBelow outer name).trans isLast)
  have named : last.name = name := by
    have mem := List.mem_of_getLast? isLast
    simpa using (List.mem_filter.mp mem).2
  rw [expanded.eq_filled, Keyed.get?_map, found, Option.map_some, Option.map_some]
  simp only [Reference.filled, site]
  by_cases literal : last.isLiteral
  · rw [← named] at fresh ⊢
    rw [if_pos literal, grow_of_followed ⟨literal, fresh, within⟩]
  · rw [if_neg literal, grow_of_not_literal (by simpa using literal)]

/-- A call that renders the page under a variable of the same name. -/
def pageVariable : Reference :=
  Site.reference ⟨"page", "C", 8, "view(", "view(page)", false⟩

theorem children_get?_expanded_pageCall :
    Expanded pageInclusions 8 (.references [pageVariable, pageCall]) []
        (tree pageInclusions 8 (.references [pageVariable, pageCall])) ∧
      (([pageVariable.site, pageCall.site].filter fun s => s.name = "page").getLast? =
        some pageCall.site) ∧
      (Keyed.get? "page" (tree pageInclusions 8 (.references [pageVariable, pageCall]))).map
          (·.children) =
        some (some (growLevel pageInclusions 8 2 [ViewName.normal "page"]
          (Level.ofSites (pageInclusions "page")))) := by
  have isLast : ([pageVariable.site, pageCall.site].filter fun s => s.name = "page").getLast? =
      some pageCall.site := rfl
  exact ⟨Expanded.first, isLast, children_get?_expanded pageInclusions 8
    (.references [pageVariable, pageCall]) Expanded.first (by decide) List.not_mem_nil isLast⟩

/-- With the variable behind it the literal call is lost, and with it all that the page includes. -/
theorem children_get?_pageVariable :
    ¬ ∀ r ∈ [pageCall, pageVariable], r.site.isLiteral →
      (Keyed.get? r.name (tree pageInclusions 8 (.references [pageCall, pageVariable]))).map
          (·.children) =
        some (some (growLevel pageInclusions 8 2 [r.view]
          (Level.ofSites (pageInclusions r.name)))) := by
  intro all
  have kept : Keyed.get? "page" ((Start.references [pageCall, pageVariable]).level pageInclusions) =
      some pageVariable := rfl
  have lost : (Keyed.get? "page"
      (tree pageInclusions 8 (.references [pageCall, pageVariable]))).map (·.children) =
        some (some []) := by
    rw [tree_eq_filled, Keyed.get?_map, kept, Option.map_some, Option.map_some]
    simp only [Reference.filled]
    rw [grow_of_not_literal rfl]
  have included := lost.symm.trans (all pageCall List.mem_cons_self rfl)
  have none : (growLevel pageInclusions 8 2 [pageCall.view]
      (Level.ofSites (pageInclusions pageCall.name))).length = 0 := by
    rw [← Option.some.inj (Option.some.inj included)]
    rfl
  rw [growLevel, List.length_map] at none
  exact absurd none (by decide)

end Expansion
end RenderTrace
