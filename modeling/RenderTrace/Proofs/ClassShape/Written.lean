import RenderTrace.ClassShape.Read
import RenderTrace.Proofs.ClassShape.Balanced

/-!
# Classes as they are written

The syntax of a class with its methods, the tokens that spell it, and the shape it
declares. Comments and white space are no part of the syntax, and every punctuation
mark has a line of its own.
-/

namespace RenderTrace

namespace Token

/-- A punctuation mark. -/
def mark (text : String) (line : Int) : Token :=
  ⟨.punct, text, line⟩

/-- An optional punctuation mark, given by its line. -/
def mark? (text : String) (line? : Option Int) : List Token :=
  (line?.map (mark text)).toList

@[simp] theorem text_mark (text : String) (line : Int) : (mark text line).text = text := rfl

@[simp] theorem kind_mark (text : String) (line : Int) : (mark text line).kind = .punct := rfl

theorem mem_mark? {text : String} {line? : Option Int} {t : Token} (h : t ∈ mark? text line?) :
    t.text = text ∧ t.kind = .punct := by
  cases line? with
  | none => exact absurd h List.not_mem_nil
  | some line =>
      rw [List.mem_singleton.mp h]
      exact ⟨rfl, rfl⟩

/-- The token is one of the braces. -/
def isBrace (t : Token) : Bool :=
  opensBrace t || closesBrace t

theorem ne_brace_of_not_isBrace {t : Token} (h : !t.isBrace) :
    t.text ≠ openBrace ∧ t.text ≠ closeBrace := by
  simpa only [isBrace, opensBrace, closesBrace, Bool.not_eq_true', Bool.or_eq_false_iff,
    beq_eq_false_iff_ne] using h

theorem areModifiers_nil : ∀ t ∈ ([] : List Token), t.isModifier :=
  List.forall_mem_nil _

theorem areMethodModifiers_nil : ∀ t ∈ ([] : List Token), t.isModifier ∧ !t.isBrace :=
  List.forall_mem_nil _

theorem noneOpensBrace_nil : ∀ t ∈ ([] : List Token), !t.opensBrace :=
  List.forall_mem_nil _

/-- The token is spelled like a mark that parts or qualifies parameters. -/
def isParameterMark (t : Token) : Bool :=
  opensBracket t || closesBracket t || endsParameter t || t.text == "&" || t.text == "?"

theorem of_not_isParameterMark {t : Token} (h : !t.isParameterMark) :
    opensBracket t = false ∧ closesBracket t = false ∧ endsParameter t = false ∧
      t.text ≠ "&" ∧ t.text ≠ "?" := by
  simpa only [isParameterMark, Bool.not_eq_true', Bool.or_eq_false_iff, beq_eq_false_iff_ne,
    and_assoc] using h

/-- The token can be a part of a parameter type. -/
def isTypeWord (t : Token) : Bool :=
  !t.isModifier && t.kind != .var && t.kind != .ellipsis && t.text != "&" && t.text != "?" &&
    t.text != "#["

end Token

open Token

/-- What may stand before the type of a parameter. -/
inductive WrittenDecoration where
  | modifier (t : Token) (isModifier : t.isModifier) (isWord : !t.isParameterMark)
  | attributes (openLine : Int) (content : List Token) (closeLine : Int)
    (brackets : bracketsBalanced content) (squares : squaresBalanced content)

def WrittenDecoration.tokens : WrittenDecoration → List Token
  | .modifier t _ _ => [t]
  | .attributes openLine content closeLine _ _ =>
    mark "#[" openLine :: content ++ [mark "]" closeLine]

/-- A parameter: decorations, an optional question mark, an optional type, an optional ampersand,
optional dots, the variable, and an optional default after an equals sign. -/
structure WrittenParameter where
  decorations : List WrittenDecoration
  nullable : Option Int
  type : List Token
  reference : Option Int
  variadic : Option Token
  name : Token
  default : Option (Int × List Token)
  type_isContained : isContained type
  type_isTypeWord : ∀ t ∈ type, t.isTypeWord
  variadic_isWord : ∀ t ∈ variadic, t.kind = .ellipsis ∧ !t.isParameterMark
  name_isWord : name.kind = .var ∧ !name.isParameterMark
  default_isContained : ∀ d ∈ default, d.2 ≠ [] ∧ isContained d.2 ∧ ∀ t ∈ d.2, t.text ≠ "#["

namespace WrittenParameter

/-- The equals sign and the default. -/
def defaultTokens (p : WrittenParameter) : List Token :=
  match p.default with
  | none => []
  | some (line, value) => mark "=" line :: value

def tokens (p : WrittenParameter) : List Token :=
  p.decorations.flatMap (·.tokens) ++ mark? "?" p.nullable ++ p.type ++ mark? "&" p.reference ++
    p.variadic.toList ++ p.name :: p.defaultTokens

/-- The parameter that is declared. -/
def shape (p : WrittenParameter) : Parameter where
  name := some p.name.text
  type := joinTexts? p.type
  isNullable := p.nullable.isSome
  isVariadic := p.variadic.isSome
  isByReference := p.reference.isSome
  default := p.default.map fun d => joinTexts d.2
  tokens := mark? "?" p.nullable ++ p.type ++ p.variadic.toList ++ p.name :: p.defaultTokens

end WrittenParameter

/-- A return type: a colon, an optional question mark, and the words of the type. -/
structure WrittenReturnType where
  colonLine : Int
  nullable : Option Int
  words : List Token
  words_ne_nil : words ≠ []
  words_arePart : ∀ t ∈ words, t.text ≠ ";" ∧ !t.isBrace ∧ t.kind ≠ .function
  head_isWord : nullable = none → ∀ t ∈ words.head?, t.text ≠ "?"

namespace WrittenReturnType

def tokens (r : WrittenReturnType) : List Token :=
  mark ":" r.colonLine :: (mark? "?" r.nullable ++ r.words)

/-- The return type that is declared. -/
def shape (r : WrittenReturnType) : ReturnType :=
  ⟨r.nullable.isSome, joinTexts r.words⟩

end WrittenReturnType

/-- What ends a method: a semicolon, or a block of any tokens with balanced braces. -/
inductive WrittenBody where
  | semicolon (line : Int)
  | block (openLine : Int) (content : List Token) (closeLine : Int)
    (balanced : bracesBalanced content)

namespace WrittenBody

def tokens : WrittenBody → List Token
  | .semicolon line => [mark ";" line]
  | .block openLine content closeLine _ =>
    mark openBrace openLine :: content ++ [mark closeBrace closeLine]

def isSemicolon : WrittenBody → Bool
  | .semicolon _ => true
  | .block .. => false

end WrittenBody

/-- A method: modifiers, the keyword, an optional ampersand, the name, parameters with commas
between them and an optional one at the end, an optional return type, and the body. A parameter
with a comma after it stands in `followed`, with the line of the comma. -/
structure WrittenMethod where
  modifiers : List Token
  keyword : Token
  reference : Option Int
  name : Token
  openLine : Int
  followed : List (WrittenParameter × Int)
  last : Option WrittenParameter
  closeLine : Int
  returnType : Option WrittenReturnType
  body : WrittenBody
  modifiers_areModifiers : ∀ t ∈ modifiers, t.isModifier ∧ !t.isBrace
  keyword_isFunction : keyword.kind = .function ∧ !keyword.isBrace
  name_isName : !name.kind.isNeverName ∧ name.text ≠ "&"

namespace WrittenMethod

def parameters (m : WrittenMethod) : List WrittenParameter :=
  m.followed.map (·.1) ++ m.last.toList

/-- The tokens between the parentheses. -/
def listTokens (m : WrittenMethod) : List Token :=
  (m.followed.flatMap fun p => p.1.tokens ++ [mark "," p.2]) ++
    m.last.toList.flatMap (·.tokens)

/-- The tokens after the keyword. -/
def headTokens (m : WrittenMethod) : List Token :=
  mark? "&" m.reference ++ m.name :: mark "(" m.openLine :: m.listTokens ++
    mark ")" m.closeLine :: m.returnType.toList.flatMap (·.tokens) ++ m.body.tokens

def tokens (m : WrittenMethod) : List Token :=
  m.modifiers ++ m.keyword :: m.headTokens

/-- The visibility modifiers, in order. -/
def visibilities (m : WrittenMethod) : List Token :=
  m.modifiers.filter fun t => t.kind matches .modifier (.visibility _)

/-- The method that is declared; without a visibility of its own it gets the given one. -/
def shape (visibility : String) (m : WrittenMethod) : Method where
  name := m.name.text
  line := m.name.line
  visibility := match m.visibilities.getLast? with
    | some t => Text.lower t.text
    | none => visibility
  visibilityText := m.visibilities.getLast?.map (·.text)
  isStatic := m.modifiers.any (·.kind == .modifier .static)
  isAbstract := m.modifiers.any (·.kind == .modifier .abstract) || m.body.isSemicolon
  returnType := m.returnType.map (·.shape)
  signature := m.parameters.flatMap (·.shape.tokens)
  parameters := m.parameters.map (·.shape)

end WrittenMethod

/-- A member of a class: a method, or tokens that declare none and do not end in a modifier. -/
inductive WrittenMember where
  | method (m : WrittenMethod)
  | other (content : List Token) (aside : isAside content)
    (ends : ∀ t ∈ content.getLast?, !t.isModifier)

namespace WrittenMember

def tokens : WrittenMember → List Token
  | .method m => m.tokens
  | .other content _ _ => content

def method? : WrittenMember → Option WrittenMethod
  | .method m => some m
  | .other .. => none

end WrittenMember

/-- A class, interface or trait: modifiers, the keyword of its form, its name, a header without an
opening brace, and members between braces. -/
structure WrittenClass where
  modifiers : List Token
  form : ClassForm
  keyword : Token
  name : Token
  header : List Token
  openLine : Int
  members : List WrittenMember
  closeLine : Int
  modifiers_areModifiers : ∀ t ∈ modifiers, t.isModifier
  keyword_isForm : keyword.kind = .form form
  name_isName : name.kind = .name
  header_isOpen : ∀ t ∈ header, !t.opensBrace

namespace WrittenClass

def tokens (c : WrittenClass) : List Token :=
  c.modifiers ++ c.keyword :: c.name :: c.header ++
    mark openBrace c.openLine :: c.members.flatMap (·.tokens) ++ [mark closeBrace c.closeLine]

def isAbstract (c : WrittenClass) : Bool :=
  c.modifiers.any (·.kind == .modifier .abstract)

/-- The methods that are declared. -/
def methods (visibility : String) (c : WrittenClass) : List Method :=
  (c.members.filterMap (·.method?)).map (·.shape visibility)

end WrittenClass

end RenderTrace
