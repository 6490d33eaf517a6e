import RenderTrace.Proofs.ViewName
import RenderTrace.ViewFolders

/-!
# Where a template is found

Every folder of a name is tried in turn, and in each folder every extension in turn.
The template found is the first candidate that is a file.
-/

namespace RenderTrace.ViewFolders
open ViewName

variable {folders : ViewFolders} {files : Files} {name : String}

/-- The path of a view below a folder, with an extension. -/
def candidate (view : List Char) (root : Path) (extension : String) : Path :=
  root.join (Path.ofText (String.ofList (withSlashes view) ++ "." ++ extension))

/-- The folders in which a name is looked for, which for a name with a hint are those of its
namespace; an unknown namespace has none. -/
def roots? (folders : ViewFolders) (name : String) : Option (List Path) :=
  match splitHint (Text.trimChars name.toList) with
  | none => some folders.paths
  | some (hint, _) => Keyed.get? (String.ofList hint) folders.namespaces

/-- The view that a name asks for, without blanks and hint. -/
def viewOf (name : String) : List Char :=
  viewPart (Text.trimChars name.toList)

/-- The path is a file, below some folder with some extension, and nothing that comes before it is
one: no candidate in an earlier folder, and none in the same folder with an earlier extension. -/
def IsFirstMatch (folders : ViewFolders) (files : Files) (view : List Char) (roots : List Path)
    (p : Path) : Prop :=
  ∃ before root after earlier extension later,
    roots = before ++ root :: after ∧ folders.extensions = earlier ++ extension :: later ∧
      p = candidate view root extension ∧ files.isFile p ∧
      (∀ r ∈ before, ∀ e ∈ folders.extensions, ¬ files.isFile (candidate view r e)) ∧
      ∀ e ∈ earlier, ¬ files.isFile (candidate view root e)

theorem withSlashes_withDots (cs : List Char) : withSlashes (withDots cs) = withSlashes cs := by
  rw [withSlashes, withDots, List.map_map, withSlashes]
  apply List.map_congr_left
  intro c _
  by_cases slash : c = '/'
  · simp [slash]
  · simp [slash]

theorem candidatesBelow_withDots (view : List Char) (roots : List Path) :
    folders.candidatesBelow (withDots view) roots = folders.candidatesBelow view roots := by
  rw [candidatesBelow, withSlashes_withDots, candidatesBelow]

theorem normalChars_eq_nil_iff {cs : List Char} : normalChars cs = [] ↔ Text.trimChars cs = [] := by
  have lengths : (normalChars cs).length = (Text.trimChars cs).length := by
    rw [normalChars_eq, List.length_append, withDots, List.length_map, ← List.length_append,
      hintPart_append_viewPart]
  rw [← List.length_eq_zero_iff, ← List.length_eq_zero_iff, lengths]

/-- The candidates of a name that is not blank are those of its view below its folders. -/
theorem candidates_eq (name : String) :
    folders.candidates name =
      if Text.trimChars name.toList = [] then []
      else ((folders.roots? name).map (folders.candidatesBelow (viewOf name))).getD [] := by
  simp only [candidates, List.isEmpty_iff, normalChars_eq_nil_iff]
  split
  · rfl
  · rw [splitHint_normalChars, roots?, viewOf, viewPart]
    cases found : splitHint (Text.trimChars name.toList) with
    | none =>
        have whole : normalChars name.toList = withDots (Text.trimChars name.toList) := by
          rw [normalChars, found]
        rw [whole]
        exact candidatesBelow_withDots _ _
    | some parts =>
        obtain ⟨hint, view⟩ := parts
        simp only [Option.map_some]
        cases Keyed.get? (String.ofList hint) folders.namespaces with
        | none => rfl
        | some roots => exact candidatesBelow_withDots view roots

theorem find?_candidatesBelow_eq_some_iff {view : List Char} {roots : List Path} {p : Path} :
    (folders.candidatesBelow view roots).find? files.isFile = some p ↔
      IsFirstMatch folders files view roots p := by
  have below : ∀ root, (folders.extensions.map (candidate view root)).find? files.isFile = none ↔
      ∀ e ∈ folders.extensions, ¬ files.isFile (candidate view root e) := by
    intro root
    simp
  have flat : folders.candidatesBelow view roots =
      roots.flatMap fun root => folders.extensions.map (candidate view root) := rfl
  rw [flat, List.find?_flatMap, List.findSome?_eq_some_iff, IsFirstMatch]
  constructor
  · rintro ⟨before, root, after, rfl, found, none⟩
    rw [List.find?_map, Option.map_eq_some_iff] at found
    obtain ⟨extension, found, rfl⟩ := found
    obtain ⟨isFile, earlier, later, split, unmatched⟩ := List.find?_eq_some_iff_append.mp found
    refine ⟨before, root, after, earlier, extension, later, rfl, split, rfl, isFile, ?_, ?_⟩
    · intro r mem
      exact (below r).mp (none r mem)
    · intro e mem
      simpa using unmatched e mem
  · rintro ⟨before, root, after, earlier, extension, later, rfl, split, rfl, isFile, none, unmatched⟩
    refine ⟨before, root, after, rfl, ?_, ?_⟩
    · rw [List.find?_map, Option.map_eq_some_iff]
      refine ⟨extension, List.find?_eq_some_iff_append.mpr ⟨isFile, earlier, later, split, ?_⟩, rfl⟩
      intro e mem
      simpa using unmatched e mem
    · intro r mem
      exact (below r).mpr (none r mem)

/-- What is found is the first match below the folders of the name. -/
theorem find?_eq_some_iff {p : Path} :
    folders.find? files name = some p ↔
      Text.trimChars name.toList ≠ [] ∧
        ∃ roots, folders.roots? name = some roots ∧
          IsFirstMatch folders files (viewOf name) roots p := by
  rw [find?, candidates_eq]
  split
  next blank => simp [blank]
  next named =>
    cases folders.roots? name with
    | none => simp
    | some roots => simp [named, find?_candidatesBelow_eq_some_iff]

/-- Nothing is found for a blank name, for an unknown namespace, and where no candidate is a
file. -/
theorem find?_eq_none_iff :
    folders.find? files name = none ↔
      Text.trimChars name.toList = [] ∨ folders.roots? name = none ∨
        ∃ roots, folders.roots? name = some roots ∧ ∀ root ∈ roots, ∀ e ∈ folders.extensions,
          ¬ files.isFile (candidate (viewOf name) root e) := by
  rw [find?, candidates_eq]
  split
  next blank => simp [blank]
  next named =>
    cases folders.roots? name with
    | none => simp
    | some roots => simp [named, candidatesBelow, candidate]

/-- Names with one normal form have the same candidates. -/
theorem candidates_eq_of_normal_eq {a b : String} (same : normal a = normal b) :
    folders.candidates a = folders.candidates b := by
  have chars : normalChars a.toList = normalChars b.toList := by
    rw [← toList_normal, ← toList_normal, same]
  rw [candidates, candidates, chars]

theorem find?_eq_of_normal_eq {a b : String} (same : normal a = normal b) :
    folders.find? files a = folders.find? files b := by
  rw [find?, find?, candidates_eq_of_normal_eq same]

end RenderTrace.ViewFolders
