import RenderTrace.Directive
import RenderTrace.Template
import RenderTrace.Text.LetterCase
import RenderTrace.Text.Numeral
import RenderTrace.Token
import RenderTrace.ViewFolders

/-!
# Settings

What a project may set: where its views lie, how deep to follow them, the forms of
text that refer to views, and the visibility of methods that state none. Settings
are read key by key from the entries of a mapping; an absent key leaves its default.
-/

namespace RenderTrace

/-- The settings of a project. -/
structure Settings where
  viewPaths : List Path
  viewNamespaces : List (String × List Path)
  viewExtensions : List String
  templateSuffix : String
  maxDepth : Int
  renderCalls : List Directive
  directives : List Directive
  defaultVisibility : Visibility
deriving DecidableEq, Repr

namespace Settings

/-- Why settings cannot be used. -/
inductive Error where
  | viewsNoMapping
  | namespacesNoMapping
  | noList (location : String)
  | depthNoInteger (value : Value)
  | depthInfinite
  | badDirective (location : String) (cause : Directive.Error)
  | badVisibility
  /-- An integer that is too long to be written stands where a text is wanted. -/
  | longNumeral
  /-- The path of the project holds a null character. -/
  | nullInRoot
  /-- The system does not let the settings file be looked up or read. -/
  | refused (cause : String)
  /-- The file is no well-formed text. -/
  | noText (file : Path)
  | noDocument (file : Path)
  | noMapping (file : Path)

/-- The path of a settings file as messages show it. -/
def shownPath (projectFolder : String) (file : Path) : String :=
  if file.root = .relative then projectFolder ++ "/" ++ file.text else file.text

/-- The user is told of the error as one of the settings; the others end the run. -/
def Error.isReported : Error → Bool
  | depthInfinite | longNumeral | nullInRoot | refused _ | noText _ => false
  | _ => true

/-- The wording of an error. -/
def Error.message (projectFolder : String) : Error → String
  | viewsNoMapping => "views: must be a mapping"
  | namespacesNoMapping => "views.namespaces: must be a mapping of namespace -> paths"
  | noList location => location ++ ": must be a list"
  | depthNoInteger value => "views.max_depth: not an integer: " ++ value.quoted
  | depthInfinite => "cannot convert float infinity to integer"
  | badDirective location cause => location ++ ": invalid entry (" ++ cause.message ++ ")"
  | badVisibility => "default_visibility: must be one of public, protected, private"
  | longNumeral => Value.longNumeralMessage
  | nullInRoot => "embedded null byte"
  | refused cause => cause
  | noText file => shownPath projectFolder file ++ ": not UTF-8"
  | noDocument file => shownPath projectFolder file ++ ": invalid YAML"
  | noMapping file =>
    shownPath projectFolder file ++
      ": must be a mapping with keys: views?, render_calls?, directives?, default_visibility?"

/-- The depth to which views are followed unless another is asked for. -/
def usualDepth : Int := 32

/-- The entries of an optional mapping; a falsy value counts as an empty one. -/
def entriesOf (error : Error) : Option Value → Except Error (List (Value × Value))
  | none => .ok []
  | some v =>
    if v.isFalsy then .ok []
    else match v with
      | .mapping entries => .ok entries
      | _ => .error error

/-- The items of a list; a single text, integer or truth value is a list of itself. -/
def itemsOf (location : String) : Value → Except Error (List Value)
  | .text s => .ok [.text s]
  | .int n => .ok [.int n]
  | .bool b => .ok [.bool b]
  | .list items => .ok items
  | _ => .error (.noList location)

/-- The text of a value. -/
def textOf (v : Value) : Except Error String :=
  match v.bare? with
  | some s => .ok s
  | none => .error .longNumeral

/-- The path that a value spells, seen from the root. -/
def pathOf (root : Path) (v : Value) : Except Error Path :=
  (textOf v).map fun s => root.join (Path.ofText s)

/-- The paths that a value lists, seen from the root. -/
def pathsOf (root : Path) (location : String) (v : Value) : Except Error (List Path) := do
  let items ← itemsOf location v
  items.mapM (pathOf root)

/-- The `paths` key. -/
def viewPathsOf (root : Path) (views : List (Value × Value)) : Except Error (List Path) :=
  match Value.lookup? "paths" views with
  | none => .ok [root.join (Path.ofText "resources/views")]
  | some v => pathsOf root "views.paths" v

/-- One entry of the `namespaces` key. -/
def namespaceOf (root : Path) (entry : Value × Value) : Except Error (String × List Path) := do
  let ns ← textOf entry.1
  let paths ← pathsOf root ("views.namespaces." ++ ns) entry.2
  return (ns, paths)

/-- The `namespaces` key. -/
def viewNamespacesOf (root : Path) (views : List (Value × Value)) :
    Except Error (List (String × List Path)) := do
  let entries ← entriesOf .namespacesNoMapping (Value.lookup? "namespaces" views)
  let pairs ← entries.mapM (namespaceOf root)
  return Keyed.ofList pairs

/-- An extension without the dots it begins with. -/
def extensionOf (v : Value) : Except Error String :=
  (textOf v).map fun s => String.ofList (s.toList.dropWhile (· == '.'))

/-- The `extensions` key. -/
def viewExtensionsOf (views : List (Value × Value)) : Except Error (List String) :=
  match Value.lookup? "extensions" views with
  | none => .ok ViewFolders.usualExtensions
  | some v => do
    let items ← itemsOf "views.extensions" v
    items.mapM extensionOf

/-- The `suffix` key, which takes any value by its text. -/
def templateSuffixOf (views : List (Value × Value)) : Except Error String :=
  match Value.lookup? "suffix" views with
  | none => .ok Templates.usualSuffix
  | some v => textOf v

/-- The integer a value stands for as a depth. -/
def depthOf (v : Value) : Except Error Int :=
  match v with
  | .int n => .ok n
  | .bool b => .ok (if b then 1 else 0)
  | .float x =>
    match Decimal.Binary.ofFloat x with
    | .nan => .error (.depthNoInteger v)
    | .infinite _ => .error .depthInfinite
    | .finite negative m e => .ok (Decimal.Binary.truncate negative m e)
  | .text s =>
    match Text.integer? s with
    | some n => .ok n
    | none => .error (.depthNoInteger v)
  | _ => .error (if v.isShowable then .depthNoInteger v else .longNumeral)

/-- The `max_depth` key. -/
def maxDepthOf (views : List (Value × Value)) : Except Error Int :=
  match Value.lookup? "max_depth" views with
  | none => .ok usualDepth
  | some v => depthOf v

/-- The directives under a key. -/
def directivesOf (key : String) (usual : List Directive) (raw : List (Value × Value)) :
    Except Error (List Directive) :=
  match Value.lookup? key raw with
  | none => .ok usual
  | some v => do
    let items ← itemsOf key v
    items.mapM fun item => (Directive.ofValue item).mapError (.badDirective key)

/-- The visibility of the given word. -/
def visibility? (word : String) : Option Visibility :=
  [Visibility.publicAccess, .protectedAccess, .privateAccess].find? fun v => v.word == word

/-- The `default_visibility` key, which takes any value by its text in lower case. -/
def defaultVisibilityOf (raw : List (Value × Value)) : Except Error Visibility :=
  match Value.lookup? "default_visibility" raw with
  | none => .ok .publicAccess
  | some v => do
    match visibility? (Text.lower (← textOf v)) with
    | some found => .ok found
    | none => .error .badVisibility

/-- The settings that entries spell; their paths are seen from the root. -/
def ofEntries (root : Path) (raw : List (Value × Value)) : Except Error Settings := do
  let views ← entriesOf .viewsNoMapping (Value.lookup? "views" raw)
  let viewPaths ← viewPathsOf root views
  let viewNamespaces ← viewNamespacesOf root views
  let viewExtensions ← viewExtensionsOf views
  let templateSuffix ← templateSuffixOf views
  let maxDepth ← maxDepthOf views
  let renderCalls ← directivesOf "render_calls" Directive.renderCalls raw
  let directives ← directivesOf "directives" Directive.inclusions raw
  let defaultVisibility ← defaultVisibilityOf raw
  return {
    viewPaths := viewPaths
    viewNamespaces := viewNamespaces
    viewExtensions := viewExtensions
    templateSuffix := templateSuffix
    maxDepth := maxDepth
    renderCalls := renderCalls
    directives := directives
    defaultVisibility := defaultVisibility }

/-- The settings of a project that sets nothing. -/
def usual : Settings where
  viewPaths := [Path.ofText "resources/views"]
  viewNamespaces := []
  viewExtensions := ViewFolders.usualExtensions
  templateSuffix := Templates.usualSuffix
  maxDepth := usualDepth
  renderCalls := Directive.renderCalls
  directives := Directive.inclusions
  defaultVisibility := .publicAccess

/-- Where the settings look for templates. -/
def folders (settings : Settings) : ViewFolders :=
  ⟨settings.viewPaths, settings.viewNamespaces, settings.viewExtensions⟩

/-- How the settings follow views into their templates. -/
def templates (settings : Settings) (files : Files) : Templates where
  find? := settings.folders.find? files
  vocabulary := .ofTemplates settings.directives
  suffix := settings.templateSuffix

/-- The sites of each view, as the settings find them. -/
def inclusions (settings : Settings) (files : Files) : Inclusions :=
  (settings.templates files).inclusions files

/-- The tree that a start expands to under the settings. -/
def tree (settings : Settings) (files : Files) (start : Expansion.Start) : Level :=
  Expansion.tree (settings.inclusions files) settings.maxDepth start

end Settings

end RenderTrace
