import RenderTrace.ClassShape
import RenderTrace.Json.Print
import RenderTrace.Reference.Walk

/-!
# Reports

What a reader of reports sees of a class shape and of a reference tree, as JSON
values and as text.
-/

namespace RenderTrace

/-- A parameter in a report. -/
def Parameter.report (p : Parameter) : Json :=
  .object
    [("name", .ofText? p.name), ("type", .ofText? p.type), ("nullable", .bool p.isNullable),
      ("variadic", .bool p.isVariadic), ("byReference", .bool p.isByReference),
      ("default", .ofText? p.default)]

/-- A method in a report. -/
def Method.report (m : Method) : Json :=
  .object
    [("name", .text m.name), ("line", .integer m.line), ("visibility", .text m.visibility),
      ("visibilityText", .ofText? m.visibilityText), ("isStatic", .bool m.isStatic),
      ("isAbstract", .bool m.isAbstract),
      ("nullableReturnType",
        match m.returnType with
        | none => .null
        | some t => .bool t.isNullable),
      ("returnType", .ofText? (m.returnType.map (·.text))),
      ("signature", .texts (m.signature.map (·.text))),
      ("parameters", .array (m.parameters.map Parameter.report))]

namespace ClassShape

/-- A class shape as a report. -/
def report (shape : ClassShape) : Json :=
  .object
    [("name", .ofText? (shape.head.map (·.name))),
      ("offset",
        match shape.head with
        | none => .null
        | some h => .integer h.offset),
      ("line",
        match shape.head with
        | none => .null
        | some h => .integer h.line),
      ("kind", .ofText? (shape.head.map (·.form.word))),
      ("isAbstract", .bool (shape.head.any (·.isAbstract))),
      ("methods", .array (shape.methods.map Method.report))]

end ClassShape

/-- A line without the carriage returns and line feeds at its end. -/
def withoutLineEnd (line : String) : String :=
  String.ofList (line.toList.reverse.dropWhile fun c => c == '\r' || c == '\n').reverse

/-- The fields of a site that a report shows first. -/
def Site.fields (s : Site) : List (String × Json) :=
  [("name", .text s.name), ("file", .text s.file), ("lineNumber", .integer s.lineNumber),
    ("directive", .text s.directive), ("line", .text (withoutLineEnd s.line)),
    ("literal", .bool s.isLiteral)]

namespace Reference

mutual

/-- A reference in a report, with all that is below it. -/
def report : Reference → Json
  | ⟨site, isCycle, isTruncated, none⟩ =>
    .object (site.fields ++
      [("cycle", .bool isCycle), ("truncated", .bool isTruncated), ("children", .null)])
  | ⟨site, isCycle, isTruncated, some level⟩ =>
    .object (site.fields ++
      [("cycle", .bool isCycle), ("truncated", .bool isTruncated),
        ("children", .object (reportLevel level))])

/-- The entries of a level in a report. -/
def reportLevel : List (String × Reference) → List (String × Json)
  | [] => []
  | (key, r) :: rest => (key, report r) :: reportLevel rest

end

end Reference

namespace Level

/-- A reference tree as a report: its views, and the names of the walk. -/
def report (level : Level) : Json :=
  .object [("views", .object (Reference.reportLevel level)), ("names", .texts level.names)]

end Level

end RenderTrace
