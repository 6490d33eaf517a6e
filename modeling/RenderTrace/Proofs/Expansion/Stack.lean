import Mathlib.Data.List.Nodup
import RenderTrace.Expansion.Recursive
import RenderTrace.Proofs.Keyed

/-!
# The stack and the recursion give one tree

Treating a waiting reference, and all it adds, changes the tree at the place of that
reference alone, and leaves there what the recursion makes of its site. The rest of
the stack is then treated as if the branch had never been taken up.
-/

namespace RenderTrace

namespace Level

/-- A keyed reference is one of those given, under its own name. -/
theorem exists_of_mem_ofReferences {refs : List Reference} {e : String × Reference}
    (h : e ∈ ofReferences refs) : ∃ r ∈ refs, e = (r.name, r) := by
  obtain ⟨r, mem, equal⟩ := List.mem_map.mp (Keyed.mem_of_mem_ofList h)
  exact ⟨r, mem, equal.symm⟩

/-- The level of sites holds them unexpanded. -/
theorem exists_of_mem_ofSites {sites : List Site} {e : String × Reference}
    (h : e ∈ ofSites sites) : ∃ s ∈ sites, e = (s.name, s.reference) := by
  obtain ⟨r, mem, rfl⟩ := exists_of_mem_ofReferences h
  obtain ⟨s, given, rfl⟩ := List.mem_map.mp mem
  exact ⟨s, given, rfl⟩

theorem key_eq_name {refs : List Reference} {e : String × Reference}
    (h : e ∈ ofReferences refs) : e.1 = e.2.name := by
  obtain ⟨r, _, rfl⟩ := exists_of_mem_ofReferences h
  rfl

theorem nodup_keys_ofReferences (refs : List Reference) :
    ((ofReferences refs).map (·.1)).Nodup :=
  Keyed.nodup_keys_ofList _

/-- Changing every entry of a level under its own key, one after another, changes them all. -/
theorem foldl_modify (change : String × Reference → Reference → Reference)
    (finished level : Level) (distinct : ((finished ++ level).map (·.1)).Nodup) :
    level.foldl (fun l e => l.modify e.1 (change e)) (finished ++ level) =
      finished ++ level.map fun e => (e.1, change e e.2) := by
  induction level generalizing finished with
  | nil => simp
  | cons e rest ih =>
      obtain ⟨key, r⟩ := e
      have apart : key ∉ finished.map (·.1) ∧ key ∉ rest.map (·.1) := by
        simp only [List.map_append, List.map_cons] at distinct
        have all := List.nodup_middle.mp distinct
        have head := (List.nodup_cons.mp all).1
        rw [List.mem_append, not_or] at head
        exact head
      have here : (finished ++ (key, r) :: rest).modify key (change (key, r)) =
          (finished ++ [(key, change (key, r) r)]) ++ rest := by
        rw [modify_append, modify_cons_self, modify_of_not_mem apart.1, modify_of_not_mem apart.2]
        simp
      rw [List.foldl_cons, here, ih]
      · simp
      · simpa using distinct

end Level

namespace Reference

/-- The reference with what the recursion found below its site; marks it had before stay. -/
def filled (r grown : Reference) : Reference :=
  { r with
    isCycle := r.isCycle || grown.isCycle
    isTruncated := r.isTruncated || grown.isTruncated
    children := grown.children }

theorem filled_of_unflagged {r grown : Reference} (cycle : r.isCycle = false)
    (truncated : r.isTruncated = false) (site : grown.site = r.site) :
    r.filled grown = grown := by
  obtain ⟨s, c, t, below⟩ := grown
  subst site
  simp [filled, cycle, truncated]

end Reference

namespace Expansion

variable (inclusions : Inclusions) (maxDepth : Int)

theorem Start.key_eq_name (start : Start) :
    ∀ e ∈ start.level inclusions, e.1 = e.2.name := by
  cases start with
  | view name => exact fun _ mem => Level.key_eq_name mem
  | references refs => exact fun _ mem => Level.key_eq_name mem

theorem Start.nodup_keys_level (start : Start) :
    ((start.level inclusions).map (·.1)).Nodup := by
  cases start with
  | view name => exact Level.nodup_keys_ofReferences _
  | references refs => exact Level.nodup_keys_ofReferences _

/-- What the recursion makes of a waiting reference. -/
def Pending.grown (p : Pending) : Reference :=
  grow inclusions maxDepth p.depth p.above p.site

/-- The tree with a waiting reference filled by the recursion. -/
def Pending.fill (p : Pending) (tree : Level) : Level :=
  p.modify (·.filled (p.grown inclusions maxDepth)) tree

/-- Filling the references of a level one after another fills the level. -/
theorem foldl_fill_waiting (path : List String) (depth : Nat) (above : List String)
    (level tree : Level) (named : ∀ e ∈ level, e.1 = e.2.name) :
    (waiting path depth above level).foldl (fun t p => p.fill inclusions maxDepth t) tree =
      tree.modifyBelow path fun l =>
        level.foldl (fun l e =>
          l.modify e.1 (·.filled (grow inclusions maxDepth depth above e.2.site))) l := by
  induction level generalizing tree with
  | nil =>
      simp only [waiting, List.map_nil, List.foldl_nil]
      exact (Level.modifyBelow_id path tree).symm
  | cons e rest ih =>
      obtain ⟨key, r⟩ := e
      have own : key = r.site.name := named (key, r) List.mem_cons_self
      subst own
      have tail := ih (Pending.fill inclusions maxDepth ⟨r.site, path, depth, above⟩ tree)
        fun e mem => named e (List.mem_cons_of_mem _ mem)
      simp only [waiting, List.map_cons, List.foldl_cons] at tail ⊢
      rw [tail, Pending.fill, Pending.modify, Level.modifyBelow_modifyBelow]
      rfl

theorem run_append (stack rest : List Pending) (tree : Level)
    (each : ∀ p ∈ stack, ∀ rest tree,
      run inclusions maxDepth tree (p :: rest) =
        run inclusions maxDepth (p.fill inclusions maxDepth tree) rest) :
    run inclusions maxDepth tree (stack ++ rest) =
      run inclusions maxDepth
        (stack.foldl (fun t p => p.fill inclusions maxDepth t) tree) rest := by
  induction stack generalizing tree with
  | nil => rfl
  | cons p stack ih =>
      rw [List.cons_append, each p List.mem_cons_self]
      exact ih _ fun q mem => each q (List.mem_cons_of_mem _ mem)

theorem step_of_not_followed {p : Pending} (h : ¬ Followed maxDepth p.depth p.above p.site) :
    step inclusions maxDepth p = ⟨(·.filled (p.grown inclusions maxDepth)), []⟩ := by
  rw [step, Pending.grown, grow]
  by_cases literal : p.site.isLiteral
  · by_cases cycle : ViewName.normal p.site.name ∈ p.above
    · simp [literal, cycle, Reference.filled]
    · have deep : maxDepth < p.depth := by
        by_contra within
        exact h ⟨literal, cycle, Int.not_lt.mp within⟩
      simp [literal, cycle, deep, Reference.filled]
  · simp [literal, Reference.filled]

theorem step_of_followed {p : Pending} (h : Followed maxDepth p.depth p.above p.site) :
    step inclusions maxDepth p =
      ⟨fun r => { r with children := some (Level.ofSites (inclusions p.site.name)) },
        waiting (p.site.name :: p.path) (p.depth + 1) (ViewName.normal p.site.name :: p.above)
          (Level.ofSites (inclusions p.site.name))⟩ := by
  obtain ⟨literal, fresh, within⟩ := h
  rw [step, if_neg (by simp [literal]), if_neg fresh, if_neg (Int.not_lt.mpr within)]

/-- Filling every entry of a level of sites gives the level that the recursion gives. -/
theorem foldl_fill_ofSites (depth : Nat) (above : List String) (sites : List Site) :
    (Level.ofSites sites).foldl (fun l e =>
        l.modify e.1 (·.filled (grow inclusions maxDepth depth above e.2.site)))
        (Level.ofSites sites) =
      growLevel inclusions maxDepth depth above (Level.ofSites sites) := by
  have all := Level.foldl_modify
    (fun e r => r.filled (grow inclusions maxDepth depth above e.2.site)) []
    (Level.ofSites sites) (Level.nodup_keys_ofReferences _)
  rw [List.nil_append, List.nil_append] at all
  rw [all, growLevel]
  apply List.map_congr_left
  intro e mem
  obtain ⟨s, _, rfl⟩ := Level.exists_of_mem_ofSites mem
  rw [Reference.filled_of_unflagged rfl rfl site_grow]

/-- A waiting reference on top of the stack is filled as the recursion fills it, and the rest of
the stack is then treated. -/
theorem run_cons (p : Pending) (rest : List Pending) (tree : Level) :
    run inclusions maxDepth tree (p :: rest) =
      run inclusions maxDepth (p.fill inclusions maxDepth tree) rest := by
  induction levels : (maxDepth + 1 - p.depth).toNat generalizing p rest tree with
  | zero =>
      have cut : ¬ Followed maxDepth p.depth p.above p.site := by
        intro h
        have within := h.2.2
        omega
      rw [run, step_of_not_followed inclusions maxDepth cut]
      rfl
  | succ n ih =>
      by_cases h : Followed maxDepth p.depth p.above p.site
      · rw [run, step_of_followed inclusions maxDepth h]
        -- The references added are one level nearer to the limit, so each is filled as claimed.
        have each : ∀ q ∈ waiting (p.site.name :: p.path) (p.depth + 1)
            (ViewName.normal p.site.name :: p.above) (Level.ofSites (inclusions p.site.name)),
            ∀ rest tree, run inclusions maxDepth tree (q :: rest) =
              run inclusions maxDepth (q.fill inclusions maxDepth tree) rest := by
          intro q mem rest tree
          obtain ⟨e, _, rfl⟩ := List.mem_map.mp mem
          exact ih _ rest tree (by simp only; omega)
        have named : ∀ e ∈ Level.ofSites (inclusions p.site.name), e.1 = e.2.name :=
          fun e mem => Level.key_eq_name mem
        rw [run_append inclusions maxDepth _ rest _ each,
          foldl_fill_waiting inclusions maxDepth _ _ _ _ _ named]
        congr 1
        rw [Pending.fill, Pending.modify, Pending.modify, Level.modifyBelow,
          Level.modifyBelow_modifyBelow]
        congr 1
        funext level
        rw [Function.comp_apply, Level.modify_modify]
        congr 1
        funext r
        rw [Function.comp_apply, Reference.mapChildren, Reference.filled,
          Pending.grown, grow_of_followed h]
        simp only [Option.map_some, Bool.or_false]
        rw [foldl_fill_ofSites]
      · rw [run, step_of_not_followed inclusions maxDepth h]
        rfl

/-- The tree of a start is its first level, each reference filled as the recursion fills it. -/
theorem tree_eq_filled (start : Start) :
    tree inclusions maxDepth start = (start.level inclusions).map fun e =>
      (e.1, e.2.filled (grow inclusions maxDepth 1 start.above e.2.site)) := by
  have whole := run_append inclusions maxDepth (waiting [] 1 start.above (start.level inclusions))
    [] (start.level inclusions) fun p _ rest tree => run_cons inclusions maxDepth p rest tree
  have all := Level.foldl_modify
    (fun e r => r.filled (grow inclusions maxDepth 1 start.above e.2.site)) []
    (start.level inclusions) (start.nodup_keys_level inclusions)
  rw [List.append_nil] at whole
  rw [List.nil_append, List.nil_append] at all
  rw [tree, whole, run, foldl_fill_waiting inclusions maxDepth [] 1 start.above _ _
    (start.key_eq_name inclusions)]
  exact all

end Expansion
end RenderTrace
