import RenderTrace.Path
import RenderTrace.Store
import RenderTrace.ViewName

/-!
# View folders

Templates are looked for in folders, each extension in turn. A name with a hint is
looked for in the folders of its namespace only.
-/

namespace RenderTrace

/-- Where templates are looked for. -/
structure ViewFolders where
  paths : List Path
  namespaces : List (String × List Path)
  extensions : List String
deriving DecidableEq, Repr

namespace ViewFolders

/-- The extensions of templates unless others are asked for. -/
def usualExtensions : List String :=
  ["blade.php", "php", "css", "html"]

/-- The paths at which a view may lie below the given folders, in the order they are tried. -/
def candidatesBelow (folders : ViewFolders) (view : List Char) (roots : List Path) : List Path :=
  roots.flatMap fun root =>
    folders.extensions.map fun extension =>
      root.join (Path.ofText (String.ofList (ViewName.withSlashes view) ++ "." ++ extension))

/-- The paths at which a view may lie; an empty name and one of an unknown namespace have none. -/
def candidates (folders : ViewFolders) (name : String) : List Path :=
  let cs := ViewName.normalChars name.toList
  if cs.isEmpty then []
  else match ViewName.splitHint cs with
    | none => folders.candidatesBelow cs folders.paths
    | some (hint, view) =>
      match Keyed.get? (String.ofList hint) folders.namespaces with
      | none => []
      | some roots => folders.candidatesBelow view roots

/-- The first candidate at which a file lies. -/
def find? (folders : ViewFolders) (files : Files) (name : String) : Option Path :=
  (folders.candidates name).find? files.isFile

end ViewFolders

end RenderTrace
