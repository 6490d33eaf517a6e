import RenderTrace.Proofs.Expansion.Stack
import RenderTrace.Report

/-!
# The readings of a tree

The keys and the references of a tree are collected by a loop each, its nested keys and
its report by a recursion each. All four follow the one order in which every entry comes
before those below it and these before the next one, and none of them leaves an entry
out or keeps two apart that have one key.
-/

namespace RenderTrace.Level
open Reference

/-! ## The order of the entries -/

theorem entryPreorder_eq (key : String) (r : Reference) :
    entryPreorder key r = (key, r) :: preorder r.inner := by
  obtain ⟨site, isCycle, isTruncated, _ | level⟩ := r
  · rw [entryPreorder, Reference.inner, Option.getD_none, preorder]
  · rw [entryPreorder, Reference.inner, Option.getD_some]

theorem preorder_append (a b : Level) : preorder (a ++ b) = preorder a ++ preorder b := by
  induction a with
  | nil => rw [preorder, List.nil_append, List.nil_append]
  | cons e rest ih =>
      obtain ⟨key, r⟩ := e
      rw [List.cons_append, preorder, ih, preorder, List.append_assoc]

/-- What is below the first entry comes next, and then the entries that wait. -/
theorem preorder_cons (key : String) (r : Reference) (pending : Level) :
    preorder ((key, r) :: pending) = (key, r) :: preorder (r.inner ++ pending) := by
  rw [preorder, entryPreorder_eq, preorder_append, List.cons_append]

/-- What holds of a stack of entries once the first is replaced by those below it holds of every
level. -/
@[elab_as_elim]
theorem stackInduction {motive : Level → Prop} (done : motive [])
    (visit : ∀ key r pending, motive (r.inner ++ pending) → motive ((key, r) :: pending))
    (level : Level) : motive level :=
  namesFrom.induct motive done visit level

/-! ## The loops -/

theorem names_eq_map_preorder (level : Level) : level.names = (preorder level).map (·.1) := by
  rw [names]
  induction level using stackInduction with
  | done => rw [namesFrom, preorder, List.map_nil]
  | visit key r pending ih => rw [namesFrom, ih, preorder_cons, List.map_cons]

theorem references_eq_map_preorder (level : Level) :
    level.references = (preorder level).map (·.2) := by
  rw [references]
  induction level using stackInduction with
  | done => rw [List.map_nil, referencesFrom, preorder, List.map_nil]
  | visit key r pending ih =>
      rw [List.map_cons, referencesFrom, ← List.map_append, ih, preorder_cons, List.map_cons]

/-- Every reference of the tree is an entry of its own. -/
theorem length_preorder (level : Level) : (preorder level).length = levelSize level := by
  induction level using stackInduction with
  | done => rw [preorder, List.length_nil, levelSize]
  | visit key r pending ih =>
      rw [preorder_cons, List.length_cons, ih, levelSize_append, levelSize, size_eq]
      omega

/-! ## The nested keys -/

mutual

/-- The key on top and those below it. -/
def KeyTree.keys : KeyTree → List String
  | .node key below => key :: KeyTree.allKeys below

/-- The keys of nested trees, each before those below it. -/
def KeyTree.allKeys : List KeyTree → List String
  | [] => []
  | t :: rest => t.keys ++ KeyTree.allKeys rest

end

theorem KeyTree.allKeys_append (a b : List KeyTree) :
    allKeys (a ++ b) = allKeys a ++ allKeys b := by
  induction a with
  | nil => rw [allKeys, List.nil_append, List.nil_append]
  | cons t rest ih => rw [List.cons_append, allKeys, ih, allKeys, List.append_assoc]

theorem keysBelow_eq (r : Reference) : keysBelow r = keyTrees r.inner := by
  obtain ⟨site, isCycle, isTruncated, _ | level⟩ := r
  · rw [keysBelow, Reference.inner, Option.getD_none, keyTrees]
  · rw [keysBelow, Reference.inner, Option.getD_some]

theorem keyTrees_append (a b : Level) : keyTrees (a ++ b) = keyTrees a ++ keyTrees b := by
  induction a with
  | nil => rw [keyTrees, List.nil_append, List.nil_append]
  | cons e rest ih =>
      obtain ⟨key, r⟩ := e
      rw [List.cons_append, keyTrees, ih, keyTrees, List.cons_append]

theorem allKeys_keyTrees (level : Level) :
    KeyTree.allKeys (keyTrees level) = (preorder level).map (·.1) := by
  induction level using stackInduction with
  | done => rw [keyTrees, KeyTree.allKeys, preorder, List.map_nil]
  | visit key r pending ih =>
      rw [keyTrees, KeyTree.allKeys, KeyTree.keys, keysBelow_eq, List.cons_append,
        ← KeyTree.allKeys_append, ← keyTrees_append, ih, preorder_cons, List.map_cons]

/-! ## The report -/

mutual

/-- The keys of the references that a report shows, each before those below it. -/
def shownKeys : List (String × Json) → List String
  | [] => []
  | (key, shown) :: rest => key :: (shownKeysBelow shown ++ shownKeys rest)

/-- The keys below a reference that a report shows. -/
def shownKeysBelow : Json → List String
  | .object fields => keysUnderChildren fields
  | _ => []

/-- The keys in the object that is the field `children`. -/
def keysUnderChildren : List (String × Json) → List String
  | [] => []
  | (field, .object level) :: rest =>
    if field = "children" then shownKeys level else keysUnderChildren rest
  | _ :: rest => keysUnderChildren rest

end

/-- The keys of the views that the report of a tree shows. -/
def reportedKeys (report : Json) : List String :=
  match report.get? "views" with
  | some (.object views) => shownKeys views
  | _ => []

theorem shownKeys_append (a b : List (String × Json)) :
    shownKeys (a ++ b) = shownKeys a ++ shownKeys b := by
  induction a with
  | nil => rw [shownKeys, List.nil_append, List.nil_append]
  | cons e rest ih =>
      obtain ⟨key, shown⟩ := e
      rw [List.cons_append, shownKeys, ih, shownKeys, List.cons_append, List.append_assoc]

theorem reportLevel_append (a b : Level) :
    reportLevel (a ++ b) = reportLevel a ++ reportLevel b := by
  induction a with
  | nil => rw [reportLevel, List.nil_append, List.nil_append]
  | cons e rest ih =>
      obtain ⟨key, r⟩ := e
      rw [List.cons_append, reportLevel, ih, reportLevel, List.cons_append]

theorem shownKeysBelow_report (r : Reference) :
    shownKeysBelow r.report = shownKeys (reportLevel r.inner) := by
  obtain ⟨site, isCycle, isTruncated, _ | level⟩ := r
  · rw [Reference.report, Reference.inner, Option.getD_none, reportLevel]
    rfl
  · rw [Reference.report, Reference.inner, Option.getD_some]
    rfl

theorem shownKeys_reportLevel (level : Level) :
    shownKeys (reportLevel level) = (preorder level).map (·.1) := by
  induction level using stackInduction with
  | done => rw [reportLevel, shownKeys, preorder, List.map_nil]
  | visit key r pending ih =>
      rw [reportLevel, shownKeys, shownKeysBelow_report, ← shownKeys_append, ← reportLevel_append,
        ih, preorder_cons, List.map_cons]

/-! ## Expanded trees -/

theorem mem_preorder_iff {e : String × Reference} {level : Level} :
    e ∈ preorder level ↔ ∃ c ∈ level, e = c ∨ e ∈ preorder c.2.inner := by
  induction level with
  | nil => simp [preorder]
  | cons c rest ih =>
      obtain ⟨key, r⟩ := c
      rw [preorder, entryPreorder_eq, List.mem_append, List.mem_cons, ih, List.exists_mem_cons_iff]

/-- Below what the recursion makes of a site every reference stands under its own name. -/
theorem key_eq_name_of_mem_grow (inclusions : Inclusions) (maxDepth : Int) (depth : Nat)
    (above : List String) (s : Site) :
    ∀ e ∈ preorder (Expansion.grow inclusions maxDepth depth above s).inner, e.1 = e.2.name := by
  fun_induction Expansion.grow inclusions maxDepth depth above s with
  | case1 => exact fun _ mem => nomatch mem
  | case2 => exact fun _ mem => nomatch mem
  | case3 => exact fun _ mem => nomatch mem
  | case4 depth above s literal fresh within ih =>
      intro e mem
      obtain ⟨_, there, mem⟩ := mem_preorder_iff.mp mem
      obtain ⟨c, given, rfl⟩ := List.mem_map.mp there
      rcases mem with rfl | below
      · rw [← ofReferences_eq_keyed] at given
        rw [Reference.name, Expansion.site_grow]
        exact key_eq_name given
      · exact ih c.2 e below

/-- In an expanded tree every reference stands under its own name. -/
theorem key_eq_name_of_mem_tree {inclusions : Inclusions} {maxDepth : Int}
    {start : Expansion.Start} {e : String × Reference}
    (mem : e ∈ preorder (Expansion.tree inclusions maxDepth start)) : e.1 = e.2.name := by
  obtain ⟨_, there, mem⟩ := mem_preorder_iff.mp mem
  rw [Expansion.tree_eq_filled] at there
  obtain ⟨c, given, rfl⟩ := List.mem_map.mp there
  rcases mem with rfl | below
  · exact start.key_eq_name inclusions c given
  · exact key_eq_name_of_mem_grow inclusions maxDepth 1 start.above c.2.site e below

/-- All readings of a tree list its entries in the order of the recursion, once each: the keys and
the references side by side are the entries, the nested keys and the report have the same keys, and
the marked references are those of the entries that are marked. In an expanded tree the keys are the
names of the references. -/
theorem readings_agree (level : Level) :
    level.names = (preorder level).map (·.1) ∧
    level.references = (preorder level).map (·.2) ∧
    level.names.zip level.references = preorder level ∧
    (preorder level).length = levelSize level ∧
    (∀ (inclusions : Inclusions) (maxDepth : Int) (start : Expansion.Start),
      (Expansion.tree inclusions maxDepth start).names =
        (Expansion.tree inclusions maxDepth start).references.map (·.name)) ∧
    KeyTree.allKeys (keyTrees level) = level.names ∧
    reportedKeys level.report = level.names ∧
    level.report.get? "names" = some (.texts level.names) ∧
    level.cycles = ((preorder level).map (·.2)).filter (·.isCycle) ∧
    level.truncated = ((preorder level).map (·.2)).filter (·.isTruncated) := by
  have names := names_eq_map_preorder level
  have references := references_eq_map_preorder level
  have together := List.zip_of_prod names.symm references.symm
  refine ⟨names, references, together.symm, length_preorder level,
    fun inclusions maxDepth start => ?_, ?_, ?_, rfl, ?_, ?_⟩
  · rw [names_eq_map_preorder, references_eq_map_preorder, List.map_map]
    apply List.map_congr_left
    exact fun e mem => key_eq_name_of_mem_tree mem
  · rw [allKeys_keyTrees, names]
  · rw [names, ← shownKeys_reportLevel]
    rfl
  · rw [cycles, references]
  · rw [truncated, references]

end RenderTrace.Level
