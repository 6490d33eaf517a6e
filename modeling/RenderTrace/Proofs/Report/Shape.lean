import RenderTrace.Report

/-!
# What the report of a class keeps

A class shape is built again from its report but for its tokens: those of a parameter
are left out, and of those of a signature the texts alone are kept.
-/

namespace RenderTrace

/-! ## Reading back what is shown -/

/-- Where reading back what is shown gives the part that is kept, and that part is shown as the whole
is, two things are shown alike exactly when the same is kept of them. -/
theorem shown_eq_iff {α β : Type} {shown : α → β} {back : β → Option α} {kept : α → α}
    (reads : ∀ a, back (shown a) = some (kept a)) (shows : ∀ a, shown (kept a) = shown a)
    (a b : α) : shown a = shown b ↔ kept a = kept b := by
  constructor
  · intro same
    have read : back (shown a) = back (shown b) := congrArg back same
    rw [reads, reads] at read
    exact Option.some.inj read
  · intro same
    calc
      shown a = shown (kept a) := (shows a).symm
      _ = shown (kept b) := congrArg shown same
      _ = shown b := shows b

/-- What is read back one by one is read back as a list. -/
theorem mapM_map_eq_some {α β γ : Type} {shown : α → β} {back : β → Option γ} {kept : α → γ}
    (each : ∀ a, back (shown a) = some (kept a)) (as : List α) :
    (as.map shown).mapM back = some (as.map kept) := by
  induction as with
  | nil => rfl
  | cons a as ih =>
      rw [List.map_cons, List.mapM_cons, each, ih]
      rfl

/-! ## Class shapes -/

/-- A token that keeps nothing but its text. -/
def Token.textOnly (text : String) : Token :=
  ⟨.other, text, 0⟩

/-- The parameter without its tokens. -/
def Parameter.withoutTokens (p : Parameter) : Parameter :=
  { p with tokens := [] }

/-- The method with the texts of its signature alone. -/
def Method.withoutTokens (m : Method) : Method :=
  { m with
    signature := m.signature.map fun t => .textOnly t.text
    parameters := m.parameters.map Parameter.withoutTokens }

/-- The form that a word introduces. -/
def ClassForm.ofWord? (word : String) : Option ClassForm :=
  [classForm, interfaceForm, traitForm].find? fun form => form.word == word

theorem ClassForm.ofWord?_word (form : ClassForm) : ofWord? form.word = some form := by
  cases form <;> rfl

/-- An optional text. -/
def Json.optionalText? : Json → Option (Option String)
  | .null => some none
  | .text s => some (some s)
  | _ => none

theorem Json.optionalText?_ofText? (text : Option String) :
    optionalText? (.ofText? text) = some text := by
  cases text <;> rfl

/-- The parameter that a report shows. -/
def Parameter.ofReport? : Json → Option Parameter
  | .object [("name", name), ("type", type), ("nullable", .bool isNullable),
      ("variadic", .bool isVariadic), ("byReference", .bool isByReference),
      ("default", default)] => do
    let name ← name.optionalText?
    let type ← type.optionalText?
    let default ← default.optionalText?
    return ⟨name, type, isNullable, isVariadic, isByReference, default, []⟩
  | _ => none

theorem Parameter.ofReport?_report (p : Parameter) :
    ofReport? p.report = some p.withoutTokens := by
  rw [report, ofReport?]
  simp only [Json.optionalText?_ofText?]
  rfl

/-- The return type that the two entries of a report show. -/
def ReturnType.ofReport? : Json → Json → Option (Option ReturnType)
  | .null, .null => some none
  | .bool isNullable, .text text => some (some ⟨isNullable, text⟩)
  | _, _ => none

/-- The token of a signature of which a report shows the text. -/
def Token.ofReport? : Json → Option Token
  | .text s => some (.textOnly s)
  | _ => none

/-- The method that a report shows. -/
def Method.ofReport? : Json → Option Method
  | .object [("name", .text name), ("line", .integer line), ("visibility", .text visibility),
      ("visibilityText", visibilityText), ("isStatic", .bool isStatic),
      ("isAbstract", .bool isAbstract), ("nullableReturnType", isNullable),
      ("returnType", returnType), ("signature", .array signature),
      ("parameters", .array parameters)] => do
    let visibilityText ← visibilityText.optionalText?
    let returnType ← ReturnType.ofReport? isNullable returnType
    let signature ← signature.mapM Token.ofReport?
    let parameters ← parameters.mapM Parameter.ofReport?
    return ⟨name, line, visibility, visibilityText, isStatic, isAbstract, returnType, signature,
      parameters⟩
  | _ => none

theorem Method.ofReport?_report (m : Method) : ofReport? m.report = some m.withoutTokens := by
  have signature : ((m.signature.map (·.text)).map Json.text).mapM Token.ofReport? =
      some (m.signature.map fun t => .textOnly t.text) := by
    have each (t : Token) : Token.ofReport? ((Json.text ∘ (·.text)) t) =
        some (.textOnly t.text) := rfl
    rw [List.map_map]
    exact mapM_map_eq_some each m.signature
  have parameters := mapM_map_eq_some Parameter.ofReport?_report m.parameters
  obtain ⟨name, line, visibility, visibilityText, isStatic, isAbstract, returnType, tokens, ps⟩ := m
  cases returnType <;>
    simp only [report, ofReport?, Json.texts, Json.optionalText?_ofText?, signature, parameters] <;>
    rfl

theorem Method.report_withoutTokens (m : Method) : m.withoutTokens.report = m.report := by
  have texts : (m.signature.map fun t => Token.textOnly t.text).map (·.text) =
      m.signature.map (·.text) := List.map_map
  have parameters : (m.parameters.map Parameter.withoutTokens).map Parameter.report =
      m.parameters.map Parameter.report := List.map_map
  rw [report, withoutTokens, report, texts, parameters]

namespace ClassShape

/-- The shape with the texts of the signatures alone. -/
def withoutTokens (shape : ClassShape) : ClassShape :=
  { shape with methods := shape.methods.map Method.withoutTokens }

/-- The head that the entries of a report show. -/
def headOfReport? (isAbstract : Bool) : Json → Json → Json → Json → Option (Option ClassHead)
  | .null, .null, .null, .null => some none
  | .text name, .integer offset, .integer line, .text word => do
    let form ← ClassForm.ofWord? word
    return some ⟨name, offset.toNat, line, form, isAbstract⟩
  | _, _, _, _ => none

/-- The class shape that a report shows. -/
def ofReport? : Json → Option ClassShape
  | .object [("name", name), ("offset", offset), ("line", line), ("kind", form),
      ("isAbstract", .bool isAbstract), ("methods", .array methods)] => do
    let head ← headOfReport? isAbstract name offset line form
    let methods ← methods.mapM Method.ofReport?
    return ⟨head, methods⟩
  | _ => none

theorem ofReport?_report (shape : ClassShape) :
    ofReport? shape.report = some shape.withoutTokens := by
  have methods := mapM_map_eq_some Method.ofReport?_report shape.methods
  obtain ⟨_ | head, ms⟩ := shape
  · simp only [report, ofReport?, methods]
    rfl
  · have form := ClassForm.ofWord?_word head.form
    simp only [report, ofReport?, Option.map_some, Json.ofText?, headOfReport?, form, methods]
    rfl

theorem report_withoutTokens (shape : ClassShape) : shape.withoutTokens.report = shape.report := by
  have methods : (shape.methods.map Method.withoutTokens).map Method.report =
      shape.methods.map Method.report := by
    rw [List.map_map]
    exact List.map_congr_left fun m _ => m.report_withoutTokens
  rw [report, withoutTokens, report, methods]

/-- Two shapes have one report exactly when they agree up to their tokens. -/
theorem report_eq_iff (a b : ClassShape) :
    a.report = b.report ↔ a.withoutTokens = b.withoutTokens :=
  shown_eq_iff ofReport?_report report_withoutTokens a b

end ClassShape

end RenderTrace
