import RenderTrace.Expansion
import RenderTrace.Store
import RenderTrace.Text.Line
import RenderTrace.Text.Utf8

/-!
# Templates

The sites of a view are those of its template. A view whose template is not found
or cannot be read has none.
-/

namespace RenderTrace

/-- The text at a path, ill-formed bytes replaced. -/
def Files.text (files : Files) (p : Path) : Except FileError String :=
  (files p).map Text.Utf8.decodeLenient

/-- The lines of the file at a path. -/
def Files.lines (files : Files) (p : Path) : Except FileError (List String) :=
  (files.text p).map Text.lines

/-- How views are followed into their templates. -/
structure Templates where
  /-- The template of a view, given the normal form of its name. -/
  find? : String → Option Path
  vocabulary : Vocabulary
  /-- Added to the name of a view to name its template in references. -/
  suffix : String

namespace Templates

/-- The suffix of template names unless another is asked for. -/
def usualSuffix : String :=
  ".blade.php"

/-- The sites that the template of each view holds. -/
def inclusions (templates : Templates) (files : Files) : Inclusions := fun name =>
  match templates.find? (ViewName.normal name) with
  | none => []
  | some p =>
    match files.lines p with
    | .error _ => []
    | .ok lines => templates.vocabulary.sites (name ++ templates.suffix) 1 lines

end Templates

end RenderTrace
