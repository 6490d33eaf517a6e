import RenderTrace.Proofs.Path
import RenderTrace.Proofs.ViewFolders

/-!
# Which folders a lookup stays in

The template of a view lies below one of the folders searched, and no part of its path
leads up again, unless the view begins with a separator. Such a view is spelled as a
path with a root of its own, which stands alone whatever folder it is joined to, so it
is looked up in no folder at all.
-/

namespace RenderTrace.ViewFolders
open ViewName

variable {folders : ViewFolders} {files : Files} {view : List Char} {extension : String}

/-- What can be written behind the dot of a file name: neither nothing nor one more dot, and no
slash. -/
def IsExtension (extension : String) : Prop :=
  extension ≠ "" ∧ '/' ∉ extension.toList ∧ extension ≠ "."

instance (extension : String) : Decidable (IsExtension extension) :=
  inferInstanceAs (Decidable (_ ∧ _ ∧ _))

/-- The view begins with one of the characters that part segments. -/
def BeginsWithSeparator (view : List Char) : Prop :=
  view.head? = some '.' ∨ view.head? = some '/'

instance (view : List Char) : Decidable (BeginsWithSeparator view) :=
  inferInstanceAs (Decidable (_ ∨ _))

/-- The path that a view spells, seen from a folder. -/
def viewPath (view : List Char) (extension : String) : Path :=
  Path.ofText (String.ofList (withSlashes view) ++ "." ++ extension)

theorem toList_viewText (view : List Char) (extension : String) :
    (String.ofList (withSlashes view) ++ "." ++ extension).toList =
      withSlashes view ++ '.' :: extension.toList := by
  simp

theorem dot_not_mem_withSlashes (view : List Char) : '.' ∉ withSlashes view := by
  rw [withSlashes, List.mem_map]
  rintro ⟨c, -, dot⟩
  split at dot
  · exact absurd dot (by decide)
  · contradiction

theorem head?_withSlashes_eq_slash_iff :
    (withSlashes view ++ '.' :: extension.toList).head? = some '/' ↔ BeginsWithSeparator view := by
  cases view with
  | nil => simp [withSlashes, BeginsWithSeparator]
  | cons c view =>
      by_cases dot : c = '.'
      · simp [withSlashes, BeginsWithSeparator, dot]
      · simp [withSlashes, BeginsWithSeparator, dot]

theorem root_viewPath_eq_relative_iff :
    (viewPath view extension).root = .relative ↔ ¬ BeginsWithSeparator view := by
  have root : (viewPath view extension).root =
      Path.rootOf (withSlashes view ++ '.' :: extension.toList) := by
    rw [← toList_viewText]
    rfl
  rw [root, Path.rootOf_eq_relative_iff, Ne, head?_withSlashes_eq_slash_iff]

/-- No part of the path of a view is two dots: the only dots in it are those of the extension and the
one before them. -/
theorem dots_not_mem_parts_viewPath (proper : IsExtension extension) :
    ".." ∉ (viewPath view extension).parts := by
  intro mem
  obtain ⟨nonempty, solid, single⟩ := proper
  have piece := Path.mem_parts_ofText mem
  rw [toList_viewText] at piece
  have solid : '/' ∉ '.' :: extension.toList := by simpa using solid
  obtain ⟨front, last, cut, longer⟩ := Path.splitSlashes_append solid (withSlashes view)
  have noDot : ∀ part ∈ front ++ [last], '.' ∉ part := by
    intro part inside dot
    exact dot_not_mem_withSlashes view (Path.mem_of_mem_splitSlashes (cut ▸ inside) '.' dot)
  rw [longer, List.mem_append, List.mem_singleton] at piece
  have dots : "..".toList = ['.', '.'] := by decide
  rw [dots] at piece
  -- Only the last part holds a dot, and it ends with the dot of the extension and the extension.
  obtain inside | same := piece
  · exact noDot _ (List.mem_append_left _ inside) (by simp)
  · cases last with
    | nil =>
        have one : extension.toList = ['.'] := (List.cons.inj same).2.symm
        exact single (String.toList_inj.mp one)
    | cons c last =>
        obtain ⟨rfl, -⟩ := List.cons.inj same
        exact noDot _ (List.mem_append_right _ List.mem_cons_self) List.mem_cons_self

theorem candidate_isBelow (inside : ¬ BeginsWithSeparator view) (proper : IsExtension extension)
    (root : Path) : (candidate view root extension).IsBelow root :=
  Path.isBelow_join (root_viewPath_eq_relative_iff.mpr inside) (dots_not_mem_parts_viewPath proper)

theorem candidate_eq_viewPath (begins : BeginsWithSeparator view) (root : Path) :
    candidate view root extension = viewPath view extension := by
  have absolute : (viewPath view extension).root ≠ .relative :=
    fun relative => root_viewPath_eq_relative_iff.mp relative begins
  exact if_neg absolute

theorem trimChars_ne_nil_of_begins {name : String} (begins : BeginsWithSeparator (viewOf name)) :
    Text.trimChars name.toList ≠ [] := by
  intro blank
  rw [viewOf, blank] at begins
  exact absurd begins (by decide)

/-- For a view that begins with a separator every folder has the same candidates, so the first one
decides. -/
theorem find?_candidatesBelow_of_begins (begins : BeginsWithSeparator view) (root : Path)
    (others : List Path) :
    (folders.candidatesBelow view (root :: others)).find? files.isFile =
      (folders.extensions.map (viewPath view)).find? files.isFile := by
  have same : ∀ r : Path, folders.extensions.map (candidate view r) =
      folders.extensions.map (viewPath view) := by
    intro r
    apply List.map_congr_left
    intro e _
    exact candidate_eq_viewPath begins r
  have flat : folders.candidatesBelow view (root :: others) =
      (root :: others).flatMap fun r => folders.extensions.map (candidate view r) := rfl
  rw [flat, List.find?_flatMap]
  simp only [same]
  cases (folders.extensions.map (viewPath view)).find? files.isFile with
  | some p => rw [List.findSome?_cons]
  | none =>
      apply List.findSome?_eq_none_iff.mpr
      intro r _
      rfl

/-- What is found is a candidate. -/
theorem exists_candidate_of_find? {name : String} {p : Path}
    (found : folders.find? files name = some p) :
    ∃ roots, folders.roots? name = some roots ∧ ∃ root ∈ roots, ∃ e ∈ folders.extensions,
      p = candidate (viewOf name) root e := by
  obtain ⟨-, roots, known, first⟩ := find?_eq_some_iff.mp found
  rw [IsFirstMatch] at first
  obtain ⟨before, root, after, earlier, e, later, split, extensions, place, -⟩ := first
  refine ⟨roots, known, root, ?_, e, ?_, place⟩
  · rw [split]
    exact List.mem_append_right _ List.mem_cons_self
  · rw [extensions]
    exact List.mem_append_right _ List.mem_cons_self

/-- The template found for a view that begins with no separator lies below one of the folders
searched. A view that begins with a separator is looked up under none of them: what is found is the
first of the paths it spells from the top of the file system that is a file. -/
theorem find?_isBelow (proper : ∀ e ∈ folders.extensions, IsExtension e) (files : Files)
    (name : String) :
    (¬ BeginsWithSeparator (viewOf name) → ∀ p, folders.find? files name = some p →
      ∃ roots, folders.roots? name = some roots ∧ ∃ root ∈ roots, p.IsBelow root) ∧
    (BeginsWithSeparator (viewOf name) →
      (∀ root others, folders.roots? name = some (root :: others) →
        folders.find? files name =
          (folders.extensions.map (viewPath (viewOf name))).find? files.isFile) ∧
      ∀ p, folders.find? files name = some p → p.root ≠ .relative ∧ ".." ∉ p.parts) := by
  refine ⟨?_, fun begins => ⟨?_, ?_⟩⟩
  · intro inside p found
    obtain ⟨roots, known, root, mem, e, listed, place⟩ := exists_candidate_of_find? found
    refine ⟨roots, known, root, mem, ?_⟩
    rw [place]
    exact candidate_isBelow inside (proper e listed) root
  · intro root others known
    rw [find?, candidates_eq, if_neg (trimChars_ne_nil_of_begins begins), known, Option.map_some,
      Option.getD_some]
    exact find?_candidatesBelow_of_begins begins root others
  · intro p found
    obtain ⟨roots, known, root, mem, e, listed, place⟩ := exists_candidate_of_find? found
    rw [place, candidate_eq_viewPath begins]
    exact ⟨fun relative => root_viewPath_eq_relative_iff.mp relative begins,
      dots_not_mem_parts_viewPath (proper e listed)⟩

/-- A file system with one file in the folder of the views and one at the top. -/
def twoMenus : Files := fun p =>
  if p = ⟨.relative, ["views", "menu.php"]⟩ ∨ p = ⟨.slash, ["menu.php"]⟩ then .ok []
  else .error .missing

theorem find?_isBelow_twoMenus :
    let folders : ViewFolders := ⟨[Path.ofText "views"], [], usualExtensions⟩
    (∀ e ∈ folders.extensions, IsExtension e) ∧ folders.find? twoMenus " menu" =
      some ⟨.relative, ["views", "menu.php"]⟩ ∧
      ∃ roots, folders.roots? " menu" = some roots ∧
        ∃ root ∈ roots, Path.IsBelow ⟨.relative, ["views", "menu.php"]⟩ root := by
  intro folders
  have proper : ∀ e ∈ folders.extensions, IsExtension e := by decide
  have found : folders.find? twoMenus " menu" = some ⟨.relative, ["views", "menu.php"]⟩ := by
    decide +kernel
  exact ⟨proper, found, (find?_isBelow proper twoMenus " menu").1 (by decide) _ found⟩

/-- A name that begins with a slash is found at the top of the file system and below no folder
searched. -/
theorem find?_leavesFolders :
    let folders : ViewFolders := ⟨[Path.ofText "views"], [], usualExtensions⟩
    (∀ e ∈ folders.extensions, IsExtension e) ∧
      folders.find? twoMenus "/menu" = some ⟨.slash, ["menu.php"]⟩ ∧
      folders.roots? "/menu" = some [Path.ofText "views"] ∧
      ∀ root ∈ [Path.ofText "views"], ¬ Path.IsBelow ⟨.slash, ["menu.php"]⟩ root := by
  refine ⟨by decide, by decide +kernel, by decide, ?_⟩
  intro root mem
  obtain rfl := List.mem_singleton.mp mem
  rintro ⟨parts, same, -⟩
  have relative : Path.Root.slash = (Path.ofText "views").root := congrArg Path.root same
  exact absurd relative (by decide)

end RenderTrace.ViewFolders
