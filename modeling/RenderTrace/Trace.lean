import RenderTrace.Catalog
import RenderTrace.Settings

/-!
# Tracing methods

From a method to the views it renders: the method is located in its file, its lines
are searched for render calls, and the views they name are expanded. The syntax tree
of a file comes from a parser that is handed in.
-/

namespace RenderTrace

/-- The items from one index up to another; a negative index counts from the end. -/
def slice {α : Type} (items : List α) (start stop : Int) : List α :=
  let place (i : Int) : Nat := (if i < 0 then i + items.length else i).toNat
  (items.take (place stop)).drop (place start)

namespace Catalog

/-- Adds every class of a PHP source. -/
def addSource (parse : String → SourceTree.Node) (catalog : Catalog) (source file : String) :
    Catalog :=
  catalog.addTree (SourceTree.Source.ofText source) file (parse source)

/-- The catalog of one file. -/
def ofFile (parse : String → SourceTree.Node) (files : Files) (visibility path : String) :
    Except FileError Catalog :=
  (files.text (Path.ofText path)).map fun source => (empty visibility).addSource parse source path

end Catalog

namespace MethodLocation

/-- The lines of the method. -/
def lines (location : MethodLocation) (files : Files) : Except FileError (List String) :=
  (files.lines (Path.ofText location.file)).map fun all =>
    slice all (location.startLine - 1) location.endLine

end MethodLocation

namespace Trace

/-- The location of a method in a file; without a class the first that declares it counts. -/
def locate (parse : String → SourceTree.Node) (files : Files) (path method : String)
    (className : Option String) : Except FileError (Option MethodLocation) :=
  (Catalog.ofFile parse files "public" path).map fun catalog =>
    match className with
    | some name => catalog.locate name method
    | none => catalog.locateAny method

/-- The shape of the first class of a file. -/
def firstClass (parse : String → SourceTree.Node) (files : Files) (visibility path : String) :
    Except FileError (Option ClassShape) :=
  (Catalog.ofFile parse files visibility path).map (·.firstClass?)

/-- The sites at which a method renders views. -/
def renderSites (settings : Settings) (files : Files) (location : MethodLocation) :
    Except FileError (List Site) :=
  (location.lines files).map fun lines =>
    (Vocabulary.ofCalls settings.renderCalls).sites location.className location.startLine lines

/-- The tree of the views a method renders. -/
def views (settings : Settings) (files : Files) (location : MethodLocation) :
    Except FileError Level :=
  (renderSites settings files location).map fun sites =>
    settings.tree files (.references (sites.map Site.reference))

/-- The tree of the views that a method of a file renders, if there is such a method. -/
def viewsOf (parse : String → SourceTree.Node) (settings : Settings) (files : Files)
    (path method : String) (className : Option String) : Except FileError (Option Level) := do
  match ← locate parse files path method className with
  | none => return none
  | some location => return some (← views settings files location)

end Trace

end RenderTrace
