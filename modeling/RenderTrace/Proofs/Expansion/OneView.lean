import RenderTrace.Proofs.Expansion.Reachability
import RenderTrace.Proofs.ViewFolders
import RenderTrace.Template

/-!
# Names of one view

Names with one normal form are names of one view: the same template is found for
them, and it includes the same views. Only the labels that say in which template a
site stands keep the name as it was written, and in a tree these are the labels of
the first level, since below it names come from the templates themselves.
-/

namespace RenderTrace
open ViewName

namespace Vocabulary

/-- Where a site stands has no part in finding it. -/
theorem map_withoutFile_lineSites (v : Vocabulary) (file other : String) (lineNumber : Int)
    (line : String) (next? : Option String) :
    (v.lineSites file lineNumber line next?).map Site.withoutFile =
      (v.lineSites other lineNumber line next?).map Site.withoutFile := by
  rw [lineSites, lineSites, List.map_flatMap, List.map_flatMap]
  apply List.flatMap_congr
  intro d _
  rw [List.map_map, List.map_map]
  rfl

theorem map_withoutFile_sites (v : Vocabulary) (file other : String) (start : Int)
    (lines : List String) :
    (v.sites file start lines).map Site.withoutFile =
      (v.sites other start lines).map Site.withoutFile := by
  induction lines generalizing start with
  | nil => rfl
  | cons line rest ih =>
      rw [sites, sites, List.map_append, List.map_append, ih,
        v.map_withoutFile_lineSites file other]

end Vocabulary

/-- A template is found by the normal form of a name. -/
theorem Templates.inclusions_dependOnView (templates : Templates) (files : Files) :
    (templates.inclusions files).DependOnView := by
  intro a b same
  rw [inclusions, inclusions, same]
  cases templates.find? (normal b) with
  | none => rfl
  | some p =>
      simp only
      cases files.lines p with
      | error e => rfl
      | ok lines => exact templates.vocabulary.map_withoutFile_sites _ _ 1 lines

/-- The reference as if it stood in a template without a name; what is below it stays. -/
def Reference.withoutFile (r : Reference) : Reference :=
  { r with site := r.site.withoutFile }

namespace Level

/-- The level as if it stood in a template without a name; what is below it stays. -/
def withoutFile (level : Level) : Level :=
  level.map fun e => (e.1, e.2.withoutFile)

theorem withoutFile_ofSites (sites : List Site) :
    (ofSites sites).withoutFile = ofSites (sites.map Site.withoutFile) := by
  rw [withoutFile, ofSites, ofReferences, Keyed.map_ofList, ofSites, ofReferences]
  simp only [List.map_map]
  rfl

end Level

namespace Expansion

variable {inclusions : Inclusions} {maxDepth : Int}

/-- What a site becomes does not depend on where it stands. -/
theorem grow_withoutFile (depth : Nat) (above : List String) (s : Site) :
    grow inclusions maxDepth depth above s.withoutFile =
      (grow inclusions maxDepth depth above s).withoutFile := by
  have literal : s.withoutFile.isLiteral = s.isLiteral := rfl
  have name : s.withoutFile.name = s.name := rfl
  rw [grow, grow.eq_def inclusions maxDepth depth above s, literal, name]
  split
  · rfl
  · split
    · rfl
    · split <;> rfl

theorem growLevel_withoutFile (depth : Nat) (above : List String) (level : Level) :
    growLevel inclusions maxDepth depth above level.withoutFile =
      (growLevel inclusions maxDepth depth above level).withoutFile := by
  rw [growLevel, growLevel, Level.withoutFile, Level.withoutFile, List.map_map, List.map_map]
  apply List.map_congr_left
  intro e _
  have grown : grow inclusions maxDepth depth above e.2.site.withoutFile =
      (grow inclusions maxDepth depth above e.2.site).withoutFile := grow_withoutFile _ _ _
  exact congrArg (Prod.mk e.1) grown

/-- The tree of a view is its level, expanded below the view itself. -/
theorem tree_view (name : String) :
    tree inclusions maxDepth (.view name) =
      growLevel inclusions maxDepth 1 [normal name] (Level.ofSites (inclusions name)) := by
  have unflagged : (Start.view name).IsUnflagged := trivial
  exact tree_eq_growLevel unflagged

/-- The names of one view have one tree, but for the labels of its first level. -/
theorem withoutFile_tree_view (dependent : inclusions.DependOnView) {a b : String}
    (same : normal a = normal b) :
    (tree inclusions maxDepth (.view a)).withoutFile =
      (tree inclusions maxDepth (.view b)).withoutFile := by
  calc
    (tree inclusions maxDepth (.view a)).withoutFile =
        growLevel inclusions maxDepth 1 [normal a]
          (Level.ofSites ((inclusions a).map Site.withoutFile)) := by
      rw [tree_view, ← growLevel_withoutFile, Level.withoutFile_ofSites]
    _ = growLevel inclusions maxDepth 1 [normal b]
          (Level.ofSites ((inclusions b).map Site.withoutFile)) := by
      rw [same, dependent a b same]
    _ = (tree inclusions maxDepth (.view b)).withoutFile := by
      rw [tree_view, ← growLevel_withoutFile, Level.withoutFile_ofSites]

end Expansion

namespace ViewFolders

/-- How views are followed into the templates that lie in the folders. -/
def templates (folders : ViewFolders) (files : Files) (vocabulary : Vocabulary) (suffix : String) :
    Templates :=
  ⟨folders.find? files, vocabulary, suffix⟩

/-- Two names stand for one view: one template is found for both, its sites are the same, and so is
the tree it expands to, whatever the depth. The labels of the sites, and of the first level of the
tree, are left out. -/
structure Interchangeable (folders : ViewFolders) (files : Files) (vocabulary : Vocabulary)
    (suffix : String) (a b : String) : Prop where
  found : folders.find? files a = folders.find? files b
  included : (((folders.templates files vocabulary suffix).inclusions files) a).map
      Site.withoutFile =
    (((folders.templates files vocabulary suffix).inclusions files) b).map Site.withoutFile
  expanded : ∀ maxDepth,
    (Expansion.tree ((folders.templates files vocabulary suffix).inclusions files) maxDepth
        (.view a)).withoutFile =
      (Expansion.tree ((folders.templates files vocabulary suffix).inclusions files) maxDepth
        (.view b)).withoutFile

theorem interchangeable_of_normal_eq (folders : ViewFolders) (files : Files)
    (vocabulary : Vocabulary) (suffix : String) {a b : String} (same : normal a = normal b) :
    folders.Interchangeable files vocabulary suffix a b := by
  have dependent := (folders.templates files vocabulary suffix).inclusions_dependOnView files
  constructor
  · exact find?_eq_of_normal_eq same
  · exact dependent a b same
  · intro maxDepth
    exact Expansion.withoutFile_tree_view dependent same

/-- A normal form is its own, and names have one normal form exactly when they have the same hint
and, after it, the same text up to separators, blanks around them set aside. Such names are
interchangeable with each other and with the normal form. The template found for a name is the
first match below its folders, and there is none exactly when the name is blank, its namespace is
unknown or no candidate is a file. -/
theorem find?_normal (folders : ViewFolders) (files : Files) (vocabulary : Vocabulary)
    (suffix : String) (a b : String) :
    normal (normal a) = normal a ∧
      (normal a = normal b ↔
        hintPart (Text.trimChars a.toList) = hintPart (Text.trimChars b.toList) ∧
          SameSegments (viewOf a) (viewOf b)) ∧
      (normal a = normal b → folders.Interchangeable files vocabulary suffix a b ∧
        folders.Interchangeable files vocabulary suffix a (normal a)) ∧
      (∀ p, folders.find? files a = some p ↔ Text.trimChars a.toList ≠ [] ∧
        ∃ roots, folders.roots? a = some roots ∧
          IsFirstMatch folders files (viewOf a) roots p) ∧
      (folders.find? files a = none ↔
        Text.trimChars a.toList = [] ∨ folders.roots? a = none ∨
          ∃ roots, folders.roots? a = some roots ∧ ∀ root ∈ roots, ∀ e ∈ folders.extensions,
            ¬ files.isFile (candidate (viewOf a) root e)) := by
  refine ⟨normal_normal a, normal_eq_iff, ?_, fun p => find?_eq_some_iff, find?_eq_none_iff⟩
  intro same
  constructor
  · exact folders.interchangeable_of_normal_eq files vocabulary suffix same
  · exact folders.interchangeable_of_normal_eq files vocabulary suffix (normal_normal a).symm

/-- A template in the folder of a namespace. -/
def mailFiles : Files := fun p =>
  if p = Path.ofText "mail/admin/users.php" then .ok (Text.Utf8.encode "@include('menu')")
  else .error .missing

def mailFolders : ViewFolders :=
  ⟨[Path.ofText "views"], [("mail", [Path.ofText "none", Path.ofText "mail"])], usualExtensions⟩

theorem find?_normal_mail :
    normal " mail::admin/users" = normal "mail::admin.users\n" ∧
      mailFolders.find? mailFiles " mail::admin/users" =
        some (Path.ofText "mail/admin/users.php") ∧
      mailFolders.Interchangeable mailFiles (.ofTemplates Directive.inclusions) ".blade.php"
        " mail::admin/users" "mail::admin.users\n" := by
  have same : normal " mail::admin/users" = normal "mail::admin.users\n" := by decide +kernel
  have found : mailFolders.find? mailFiles " mail::admin/users" =
      some (Path.ofText "mail/admin/users.php") := by decide +kernel
  exact ⟨same, found, ((find?_normal mailFolders mailFiles (.ofTemplates Directive.inclusions)
    ".blade.php" " mail::admin/users" "mail::admin.users\n").2.2.1 same).1⟩

end ViewFolders

end RenderTrace
