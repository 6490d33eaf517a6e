import RenderTrace.Settings
import RenderTrace.Text.Utf8

/-!
# Loading settings

The settings file of a project lies in its folder. A project without one has the
usual settings, seen from its folder; so has one whose document holds nothing.

Two things are left to the surroundings. A parser of documents gives the value that
a text spells, or refuses the text. And the system may refuse to look a path up or
to read it, with a wording of its own, where its name is too long or a permission
is missing.
-/

namespace RenderTrace.Settings

/-- The name of the settings file. -/
def fileName : String := "view-graph.yaml"

/-- The entries of a JSON object. -/
def entriesOfJson (j : Json) : List (Value × Value) :=
  match Value.ofJson j with
  | .mapping entries => entries
  | _ => []

/-- The settings that a document spells; what is falsy spells nothing. -/
def ofDocument (root : Path) (file : Path) (v : Value) : Except Error Settings :=
  if v.isFalsy then ofEntries root []
  else match v with
    | .mapping entries => ofEntries root entries
    | _ => .error (.noMapping file)

/-- The settings file of the project in a folder. -/
def fileOf (root : Path) : Path :=
  (root.join (Path.ofText fileName)).resolved

section Surroundings

variable (parse : List Char → Option Value)

/-- The settings that the bytes of a settings file spell. -/
def ofBytes (root : Path) (file : Path) (bytes : List UInt8) : Except Error Settings :=
  match Text.Utf8.decode? bytes with
  | none => .error (.noText file)
  | some s =>
    match parse (Text.unifyBreaks s.toList) with
    | none => .error (.noDocument file)
    | some v => ofDocument root file v

/-- The settings of the project in a folder. -/
def load (refuses : Path → Option String) (files : Files) (root : Path) : Except Error Settings :=
  if root.holdsNull then .error .nullInRoot
  else match refuses (fileOf root) with
    | some cause => .error (.refused cause)
    | none =>
      match files (fileOf root) with
      | .error _ => ofEntries root []
      | .ok bytes => ofBytes parse root (fileOf root) bytes

end Surroundings

end RenderTrace.Settings
