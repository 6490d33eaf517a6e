import RenderTrace.ClassShape.Read
import RenderTrace.Keyed
import RenderTrace.SourceTree

/-!
# The catalog of classes

The classes of the sources indexed so far, by their full names, and the places of
their methods. Every outermost class, interface or trait of a source is indexed
under the namespace it stands in; what is declared again replaces what was there.
-/

namespace RenderTrace
open SourceTree

/-- Where a method lies: its class, its file and its first and last line, counted from one. -/
structure MethodLocation where
  className : String
  method : String
  file : String
  startLine : Int
  endLine : Int
deriving DecidableEq, Repr

/-- Classes by full name, and method locations by class and method in lower case. -/
structure Catalog where
  /-- The visibility of methods that state none. -/
  visibility : String
  classes : List (String × ClassShape)
  locations : List ((String × String) × MethodLocation)

namespace Catalog

/-- A catalog of nothing. -/
def empty (visibility : String) : Catalog :=
  ⟨visibility, [], []⟩

/-- Nodes that declare a class. -/
def isClassNode (n : Node) : Bool :=
  n.type == "class_declaration" || n.type == "interface_declaration" ||
    n.type == "trait_declaration"

mutual

/-- The class nodes at or below a node that lie in no other class node. -/
def outermostClasses : Node → List Node
  | ⟨type, start, stop, row, endRow, isMissing, field, children⟩ =>
    if isClassNode ⟨type, start, stop, row, endRow, isMissing, field, children⟩ then
      [⟨type, start, stop, row, endRow, isMissing, field, children⟩]
    else outermostClassesOf children

/-- The outermost class nodes of several nodes. -/
def outermostClassesOf : List Node → List Node
  | [] => []
  | n :: rest => outermostClasses n ++ outermostClassesOf rest

end

/-- The full name of a class; a nameless namespace adds nothing. -/
def fullName (namespaceName : Option String) (name : String) : String :=
  match namespaceName with
  | none => name
  | some ns => if ns.isEmpty then name else ns ++ "\\" ++ name

/-- The class nodes of top-level nodes with their namespaces. A namespace with a body holds what
is inside, one without holds what follows. -/
def declarations (source : Source) (current : Option String) :
    List Node → List (Option String × Node)
  | [] => []
  | n :: rest =>
    if n.type == "namespace_definition" then
      let name := (n.child? "name").map (·.text source)
      match n.child? "body" with
      | none => declarations source name rest
      | some body =>
        (outermostClassesOf body.children).map (fun c => (name, c)) ++
          declarations source current rest
    else
      (outermostClasses n).map (fun c => (current, c)) ++ declarations source current rest

/-- The location of a method node; a node without a name has none. -/
def location? (source : Source) (file className : String) (member : Node) :
    Option MethodLocation :=
  if member.type == "method_declaration" then
    (member.child? "name").map fun name =>
      { className := className
        method := name.text source
        file := file
        startLine := member.row + 1
        endLine := member.endRow + 1 }
  else none

/-- The locations of the methods of a class node. -/
def locationsOf (source : Source) (file className : String) (n : Node) : List MethodLocation :=
  match n.child? "body" with
  | none => []
  | some body => body.children.filterMap (location? source file className)

/-- The key of a location. -/
def locationKey (l : MethodLocation) : String × String :=
  (Text.lower l.className, Text.lower l.method)

/-- Adds the class of a node; a node without a readable name adds nothing. -/
def addClass (source : Source) (file : String) (catalog : Catalog)
    (declared : Option String × Node) : Catalog :=
  let shape := ClassShape.read catalog.visibility (tokens source declared.2)
  match shape.head with
  | none => catalog
  | some head =>
    let className := fullName declared.1 head.name
    let found := locationsOf source file className declared.2
    { catalog with
      classes := Keyed.put className shape catalog.classes
      locations := Keyed.putAll catalog.locations (found.map fun l => (locationKey l, l)) }

/-- Adds every class of a source, given its syntax tree. -/
def addTree (source : Source) (file : String) (catalog : Catalog) (root : Node) : Catalog :=
  (declarations source none root.children).foldl (addClass source file) catalog

/-- The text after the last backslash. -/
def simpleName (name : String) : String :=
  String.ofList (name.toList.reverse.takeWhile (· != '\\')).reverse

/-- The location of a method; the class is given by its full or its simple name. The first that
fits is taken. -/
def locate (catalog : Catalog) (className method : String) : Option MethodLocation :=
  let wanted := Text.lower (String.ofList (className.toList.dropWhile (· == '\\')))
  let name := Text.lower method
  (catalog.locations.find? fun ((owner, m), _) =>
    m == name && (owner == wanted || simpleName owner == wanted)).map (·.2)

/-- The first location of a method of that name, whatever its class. -/
def locateAny (catalog : Catalog) (method : String) : Option MethodLocation :=
  (catalog.locations.find? fun ((_, m), _) => m == Text.lower method).map (·.2)

/-- The class added first. -/
def firstClass? (catalog : Catalog) : Option ClassShape :=
  catalog.classes.head?.map (·.2)

end Catalog

end RenderTrace
