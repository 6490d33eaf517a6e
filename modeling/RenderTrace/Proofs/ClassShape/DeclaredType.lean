import RenderTrace.Proofs.ClassShape.Unclosed

/-!
# Declared types of parameters

A parameter may declare a union or an intersection of types. The ampersand of an
intersection is taken for the mark of a parameter by reference: it is dropped from
the type and from the signature. Everything else is read as it is declared, so the
parameter is read as declared exactly when its type intersects nothing.
-/

namespace RenderTrace
open Token ClassShape

/-- The name of a type: words that are none of the marks of a parameter. -/
structure TypeName where
  words : List Token
  words_ne_nil : words ≠ []
  words_areWords : ∀ t ∈ words, t.isTypeWord ∧ !t.isParameterMark

/-- Names with an ampersand before each but the first. -/
structure Intersection where
  first : TypeName
  more : List (Int × TypeName)

/-- A member of a union. -/
inductive UnionMember where
  | name (n : TypeName)
  | parenthesised (openLine : Int) (names : Intersection) (closeLine : Int)

/-- A type: an intersection, which may be a single name, or members with a bar before each but the
first. -/
inductive DeclaredType where
  | intersection (names : Intersection)
  | union (first : UnionMember) (more : List (Int × UnionMember))

namespace Intersection

def tokens (i : Intersection) : List Token :=
  i.first.words ++ i.more.flatMap fun p => mark "&" p.1 :: p.2.words

/-- There is an ampersand in it. -/
def isProper (i : Intersection) : Bool :=
  !i.more.isEmpty

end Intersection

namespace UnionMember

def tokens : UnionMember → List Token
  | name n => n.words
  | parenthesised openLine names closeLine =>
    mark "(" openLine :: names.tokens ++ [mark ")" closeLine]

def intersects : UnionMember → Bool
  | name _ => false
  | parenthesised _ names _ => names.isProper

end UnionMember

namespace DeclaredType

def tokens : DeclaredType → List Token
  | intersection names => names.tokens
  | union first more => first.tokens ++ more.flatMap fun p => mark "|" p.1 :: p.2.tokens

/-- Somewhere in the type names are joined by an ampersand. -/
def intersects : DeclaredType → Bool
  | intersection names => names.isProper
  | union first more => first.intersects || more.any (·.2.intersects)

end DeclaredType

/-- A parameter with a declared type; the rest of it is a parameter without one. -/
structure TypedParameter where
  untyped : WrittenParameter
  type : Option DeclaredType
  untyped_type : untyped.type = []

namespace TypedParameter

def typeTokens (p : TypedParameter) : List Token :=
  p.type.toList.flatMap (·.tokens)

def tokens (p : TypedParameter) : List Token :=
  p.untyped.decorations.flatMap (·.tokens) ++ mark? "?" p.untyped.nullable ++ p.typeTokens ++
    mark? "&" p.untyped.reference ++ p.untyped.variadic.toList ++
    p.untyped.name :: p.untyped.defaultTokens

def intersects (p : TypedParameter) : Bool :=
  p.type.any (·.intersects)

/-- The parameter that is declared: its type has the texts of all its tokens, and it is taken by
reference when an ampersand stands after the type. -/
def shape (p : TypedParameter) : Parameter where
  name := some p.untyped.name.text
  type := p.type.map fun type => joinTexts type.tokens
  isNullable := p.untyped.nullable.isSome
  isVariadic := p.untyped.variadic.isSome
  isByReference := p.untyped.reference.isSome
  default := p.untyped.default.map fun d => joinTexts d.2
  tokens := mark? "?" p.untyped.nullable ++ p.typeTokens ++ p.untyped.variadic.toList ++
    p.untyped.name :: p.untyped.defaultTokens

end TypedParameter

/-- A method whose parameters have declared types; the rest of it is a method without
parameters. -/
structure TypedMethod where
  outline : WrittenMethod
  followed : List (TypedParameter × Int)
  last : Option TypedParameter
  outline_parameters : outline.parameters = []

namespace TypedMethod

def parameters (m : TypedMethod) : List TypedParameter :=
  m.followed.map (·.1) ++ m.last.toList

/-- The tokens after the last comma. -/
def lastTokens (m : TypedMethod) : List Token :=
  m.last.toList.flatMap (·.tokens)

/-- The tokens between the parentheses. -/
def listTokens (m : TypedMethod) : List Token :=
  (m.followed.flatMap fun p => p.1.tokens ++ [mark "," p.2]) ++ m.lastTokens

/-- The tokens after the keyword. -/
def headTokens (m : TypedMethod) : List Token :=
  mark? "&" m.outline.reference ++ m.outline.name :: mark "(" m.outline.openLine ::
    m.listTokens ++ mark ")" m.outline.closeLine ::
    m.outline.returnType.toList.flatMap (·.tokens) ++ m.outline.body.tokens

def tokens (m : TypedMethod) : List Token :=
  m.outline.modifiers ++ m.outline.keyword :: m.headTokens

/-- The method that is declared. -/
def shape (visibility : String) (m : TypedMethod) : Method :=
  { m.outline.shape visibility with
    parameters := m.parameters.map (·.shape)
    signature := m.parameters.flatMap (·.shape.tokens) }

end TypedMethod

/-! ## Ampersands -/

namespace Token

/-- The token is spelled like the ampersand. -/
def isAmpersand (t : Token) : Bool :=
  t.text == "&"

/-- The token can stand in a type, as a word of it or as an ampersand. -/
def isTypePart (t : Token) : Bool :=
  t.isTypeWord || t.isAmpersand && t.kind == .punct

theorem isTypePart_mark_ampersand (line : Int) : (mark "&" line).isTypePart := by
  simp [isTypePart, isAmpersand]

theorem of_isTypePart {t : Token} (part : t.isTypePart) :
    t.isModifier = false ∧ t.text ≠ "#[" ∧ !t.namesParameter ∧
      t.marksReference = t.isAmpersand := by
  have reference : t.isModifier = false → t.marksReference = t.isAmpersand := by
    intro plain
    rw [marksReference, plain]
    rfl
  rcases Bool.or_eq_true_iff.mp part with word | ampersand
  · simp only [isTypeWord, Bool.and_eq_true, Bool.not_eq_true', bne_iff_ne] at word
    obtain ⟨⟨⟨⟨⟨modifier, kind⟩, _⟩, _⟩, _⟩, opening⟩ := word
    exact ⟨modifier, opening, by simp [namesParameter, kind], reference modifier⟩
  · simp only [isAmpersand, Bool.and_eq_true, beq_iff_eq] at ampersand
    obtain ⟨text, kind⟩ := ampersand
    have modifier : t.isModifier = false := by simp [isModifier, kind, Kind.isModifier]
    exact ⟨modifier, by simp [text], by simp [namesParameter, kind], reference modifier⟩

/-- Ampersands neither open nor close nor end anything. -/
theorem containedFrom_filter (depth : Nat) (ts : List Token) :
    containedFrom depth (ts.filter (!·.isAmpersand)) = containedFrom depth ts := by
  induction ts generalizing depth with
  | nil => rfl
  | cons t ts ih =>
      by_cases ampersand : t.isAmpersand
      · have text : t.text = "&" := by simpa [isAmpersand] using ampersand
        have plain : containedFrom depth (t :: ts) = containedFrom depth ts := by
          simp [containedFrom, endsParameter, opensBracket, closesBracket, text, openBrace,
            closeBrace]
        rw [List.filter_cons, ampersand, Bool.not_true, if_neg Bool.false_ne_true, ih, plain]
      · rw [List.filter_cons, if_pos (by simpa using ampersand), containedFrom, containedFrom,
          ih, ih, ih]

theorem joinTexts_cons (t : Token) (ts : List Token) :
    joinTexts (t :: ts) = t.text ++ joinTexts ts := by
  simp [joinTexts, String.join_cons]

/-- Leaving out ampersands makes the text shorter by as many characters. -/
theorem length_joinTexts_filter (ts : List Token) :
    (joinTexts ts).length =
      (joinTexts (ts.filter (!·.isAmpersand))).length + ts.countP (·.isAmpersand) := by
  induction ts with
  | nil => rfl
  | cons t ts ih =>
      rw [joinTexts_cons, String.length_append, List.filter_cons, List.countP_cons]
      by_cases ampersand : t.isAmpersand
      · have text : t.text = "&" := by simpa [isAmpersand] using ampersand
        have one : "&".length = 1 := rfl
        rw [ampersand, if_pos rfl, Bool.not_true, if_neg Bool.false_ne_true, text, one, ih]
        omega
      · rw [if_pos (by simpa using ampersand), joinTexts_cons, String.length_append,
          if_neg ampersand]
        omega

/-- The text without the ampersands is the whole text only where there are none. -/
theorem joinTexts_filter_eq_iff (ts : List Token) :
    joinTexts (ts.filter (!·.isAmpersand)) = joinTexts ts ↔ !ts.any (·.isAmpersand) := by
  constructor
  · intro equal
    have count := length_joinTexts_filter ts
    rw [equal] at count
    have zero : ts.countP (·.isAmpersand) = 0 := by omega
    simpa using List.countP_eq_zero.mp zero
  · intro none
    have all : ∀ t ∈ ts, !t.isAmpersand := by simpa using none
    rw [List.filter_eq_self.mpr all]

end Token

/-! ## The tokens of a type -/

theorem TypeName.any_isAmpersand (n : TypeName) : n.words.any (·.isAmpersand) = false := by
  rw [List.any_eq_false]
  intro t mem
  simpa [isAmpersand] using (of_not_isParameterMark (n.words_areWords t mem).2).2.2.2.1

theorem TypeName.isContained_words (n : TypeName) : isContained n.words :=
  isContained_of_areWords fun t mem => (n.words_areWords t mem).2

theorem TypeName.all_isTypePart (n : TypeName) : n.words.all (·.isTypePart) := by
  rw [List.all_eq_true]
  intro t mem
  exact Bool.or_eq_true_iff.mpr (.inl (n.words_areWords t mem).1)

theorem TypeName.exists_head (n : TypeName) : ∃ t more, n.words = t :: more ∧ !t.isAmpersand := by
  obtain ⟨t, more, equal⟩ := List.exists_cons_of_ne_nil n.words_ne_nil
  have plain := n.any_isAmpersand
  rw [equal, List.any_cons, Bool.or_eq_false_iff] at plain
  exact ⟨t, more, equal, by rw [plain.1]; rfl⟩

namespace Intersection

variable (i : Intersection)

theorem any_isAmpersand : i.tokens.any (·.isAmpersand) = i.isProper := by
  rw [tokens, List.any_append, i.first.any_isAmpersand, Bool.false_or, isProper]
  cases i.more with
  | nil => rfl
  | cons p more => rfl

theorem isContained_tokens : isContained i.tokens := by
  refine isContained_append i.first.isContained_words (isContained_flatMap i.more ?_)
  intro p
  have ampersand : isContained [mark "&" p.1] := rfl
  exact isContained_append ampersand p.2.isContained_words

theorem all_isTypePart : i.tokens.all (·.isTypePart) := by
  rw [tokens, List.all_append, i.first.all_isTypePart, Bool.true_and, List.all_flatMap,
    List.all_eq_true]
  intro p _
  rw [List.all_cons, isTypePart_mark_ampersand, p.2.all_isTypePart, Bool.and_self]

end Intersection

namespace UnionMember

variable (u : UnionMember)

theorem any_isAmpersand : u.tokens.any (·.isAmpersand) = u.intersects := by
  cases u with
  | name n => exact n.any_isAmpersand
  | parenthesised openLine names closeLine =>
      rw [tokens, List.any_append, List.any_cons, names.any_isAmpersand]
      simp [isAmpersand, intersects]

theorem isContained_tokens : isContained u.tokens := by
  cases u with
  | name n => exact n.isContained_words
  | parenthesised openLine names closeLine =>
      exact isContained_enclosed (balancedFrom_of_containedFrom names.isContained_tokens)
        (fun _ => rfl) rfl

theorem all_isTypePart : u.tokens.all (·.isTypePart) := by
  cases u with
  | name n => exact n.all_isTypePart
  | parenthesised openLine names closeLine =>
      rw [tokens, List.all_append, List.all_cons, names.all_isTypePart]
      simp [isTypePart, isTypeWord, isModifier, Kind.isModifier]

theorem exists_head : ∃ t more, u.tokens = t :: more ∧ !t.isAmpersand := by
  cases u with
  | name n => exact n.exists_head
  | parenthesised openLine names closeLine =>
      exact ⟨mark "(" openLine, names.tokens ++ [mark ")" closeLine], rfl, rfl⟩

end UnionMember

namespace DeclaredType

variable (type : DeclaredType)

/-- The ampersands of a type are those of its intersections. -/
theorem any_isAmpersand : type.tokens.any (·.isAmpersand) = type.intersects := by
  cases type with
  | intersection names => exact names.any_isAmpersand
  | union first more =>
      rw [tokens, List.any_append, first.any_isAmpersand, List.any_flatMap, intersects]
      congr 2
      funext p
      rw [List.any_cons, p.2.any_isAmpersand]
      rfl

theorem isContained_tokens : isContained type.tokens := by
  cases type with
  | intersection names => exact names.isContained_tokens
  | union first more =>
      refine isContained_append first.isContained_tokens (isContained_flatMap more ?_)
      intro p
      have bar : isContained [mark "|" p.1] := rfl
      exact isContained_append bar p.2.isContained_tokens

theorem all_isTypePart : type.tokens.all (·.isTypePart) := by
  cases type with
  | intersection names => exact names.all_isTypePart
  | union first more =>
      rw [tokens, List.all_append, first.all_isTypePart, Bool.true_and, List.all_flatMap,
        List.all_eq_true]
      intro p _
      rw [List.all_cons, p.2.all_isTypePart, Bool.and_true]
      rfl

theorem exists_head : ∃ t more, type.tokens = t :: more ∧ !t.isAmpersand := by
  cases type with
  | intersection names =>
      obtain ⟨t, more, equal, plain⟩ := names.first.exists_head
      exact ⟨t, more ++ _, by rw [tokens, Intersection.tokens, equal]; rfl, plain⟩
  | union first more =>
      obtain ⟨t, words, equal, plain⟩ := first.exists_head
      exact ⟨t, words ++ _, by rw [tokens, equal]; rfl, plain⟩

end DeclaredType

/-! ## Parameters -/

namespace TypedParameter

variable (p : TypedParameter)

theorem any_isAmpersand : p.typeTokens.any (·.isAmpersand) = p.intersects := by
  rw [typeTokens, intersects]
  cases p.type with
  | none => rfl
  | some type =>
      rw [Option.toList_some, List.flatMap_singleton, type.any_isAmpersand, Option.any_some]

theorem isContained_typeTokens : isContained p.typeTokens :=
  isContained_flatMap p.type.toList (·.isContained_tokens)

theorem of_mem_typeTokens {t : Token} (h : t ∈ p.typeTokens) : t.isTypePart := by
  obtain ⟨type, _, mem⟩ := List.mem_flatMap.mp h
  exact List.all_eq_true.mp type.all_isTypePart t mem

/-- The type without its ampersands. -/
def readType : List Token :=
  p.typeTokens.filter (!·.isAmpersand)

/-- The parameter without ampersands in its type: the first of them stands after the type unless
another stands there already. -/
def asRead : WrittenParameter :=
  { p.untyped with
    type := p.readType
    reference := p.untyped.reference.or ((p.typeTokens.find? (·.isAmpersand)).map (·.line))
    type_isContained := by
      rw [isContained, readType, containedFrom_filter]
      exact p.isContained_typeTokens
    type_isTypeWord := by
      intro t mem
      obtain ⟨mem, plain⟩ := List.mem_filter.mp mem
      have part := p.of_mem_typeTokens mem
      have word : t.isAmpersand = false := by simpa using plain
      rwa [isTypePart, word, Bool.false_and, Bool.or_false] at part }

theorem isSome_asRead_reference :
    p.asRead.reference.isSome = (p.untyped.reference.isSome || p.intersects) := by
  rw [← p.any_isAmpersand, asRead, Option.isSome_or, Option.isSome_map, List.isSome_find?]

/-- What stands before the variable when attributes are set aside. -/
def beforeName : List Token :=
  WrittenDecoration.modifiers p.untyped.decorations ++ mark? "?" p.untyped.nullable ++
    p.typeTokens ++ mark? "&" p.untyped.reference ++ p.untyped.variadic.toList

theorem outsideAttributes_tokens : outsideAttributes 0 p.tokens =
    p.beforeName ++ p.untyped.name :: p.untyped.defaultTokens := by
  have bare : ∀ t ∈ mark? "?" p.untyped.nullable ++ (p.typeTokens ++
      (mark? "&" p.untyped.reference ++ (p.untyped.variadic.toList ++
        p.untyped.name :: p.untyped.defaultTokens))), t.text ≠ "#[" := by
    intro t mem
    by_cases type : t ∈ p.typeTokens
    · exact (of_isTypePart (p.of_mem_typeTokens type)).2.1
    · apply p.untyped.ne_attribute_of_mem
      simpa [type, p.untyped_type] using mem
  simp only [tokens, beforeName, List.append_assoc]
  rw [outsideAttributes_decorations, outsideAttributes_of_ne bare]

theorem not_namesParameter_of_mem_beforeName {t : Token} (h : t ∈ p.beforeName) :
    !t.namesParameter := by
  by_cases type : t ∈ p.typeTokens
  · exact (of_isTypePart (p.of_mem_typeTokens type)).2.2.1
  · apply p.untyped.not_namesParameter_of_mem_beforeName
    simpa [beforeName, WrittenParameter.beforeName, type, p.untyped_type] using h

/-- Of the type the ampersands are not kept. -/
theorem filter_beforeName :
    (p.beforeName.filter fun t => !t.isModifier && t.text != "&") = p.asRead.keptTokens := by
  have type : (p.typeTokens.filter fun t => !t.isModifier && t.text != "&") =
      p.readType.filter fun t => !t.isModifier && t.text != "&" := by
    rw [readType, List.filter_filter]
    congr 1
    funext t
    simp [isAmpersand, bne]
  have mark (line? : Option Int) :
      ((mark? "&" line?).filter fun t => !t.isModifier && t.text != "&") = [] := by
    rw [List.filter_eq_nil_iff]
    intro t mem
    simp [(mem_mark? mem).1]
  rw [← p.asRead.filter_beforeName]
  simp only [beforeName, WrittenParameter.beforeName, List.filter_append, mark, type]
  rfl

/-- An ampersand of the type counts like one after it. -/
theorem any_marksReference : p.beforeName.any (·.marksReference) = p.asRead.reference.isSome := by
  have type : p.typeTokens.any (·.marksReference) = p.intersects := by
    rw [← p.any_isAmpersand, Bool.eq_iff_iff, List.any_eq_true, List.any_eq_true]
    exact exists_congr fun t => and_congr_right fun mem => by
      rw [(of_isTypePart (p.of_mem_typeTokens mem)).2.2.2]
  have around := p.untyped.any_marksReference
  rw [WrittenParameter.beforeName, p.untyped_type, List.append_nil] at around
  rw [isSome_asRead_reference, ← around]
  simp only [beforeName, List.any_append, type]
  ac_rfl

/-- The group of the parameter gives the parameter without the ampersands of its type. -/
theorem ofGroup_tokens : Parameter.ofGroup p.tokens = p.asRead.shape := by
  rw [Parameter.ofGroup_named p.outsideAttributes_tokens
    (fun t => p.not_namesParameter_of_mem_beforeName) p.untyped.namesParameter_name]
  simp only [filter_beforeName, p.asRead.filter_keptTokens, p.asRead.any_marksNullable,
    p.asRead.any_marksVariadic, any_marksReference, p.untyped.default_eq]
  rfl

/-- The type is read as declared unless it intersects. -/
theorem type_asRead_eq_iff : p.asRead.shape.type = p.shape.type ↔ !p.intersects := by
  rw [← p.any_isAmpersand]
  cases equal : p.type with
  | none => simp [asRead, WrittenParameter.shape, shape, readType, typeTokens, equal, joinTexts?]
  | some type =>
      have tokens : p.typeTokens = type.tokens := by simp [typeTokens, equal]
      obtain ⟨t, more, head, plain⟩ := type.exists_head
      have left : p.readType.isEmpty = false := by
        rw [readType, tokens, head, List.filter_cons, if_pos plain]
        rfl
      have text : joinTexts? p.readType = some (joinTexts p.readType) := by
        rw [joinTexts?, left]
        rfl
      have read : p.asRead.shape.type = some (joinTexts p.readType) := text
      have declared : p.shape.type = some (joinTexts p.typeTokens) := by
        rw [shape, equal, tokens]
        rfl
      rw [read, declared, Option.some_inj]
      exact joinTexts_filter_eq_iff p.typeTokens

/-- The tokens are kept unless the type intersects. -/
theorem tokens_asRead_eq_iff : p.asRead.shape.tokens = p.shape.tokens ↔ !p.intersects := by
  have read : p.asRead.shape.tokens = mark? "?" p.untyped.nullable ++ p.readType ++
      p.untyped.variadic.toList ++ p.untyped.name :: p.untyped.defaultTokens := rfl
  rw [read, shape, List.append_left_inj, List.append_left_inj, List.append_right_inj, readType,
    List.filter_eq_self, ← p.any_isAmpersand]
  simp

theorem isByReference_asRead :
    p.asRead.shape.isByReference = (p.shape.isByReference || p.intersects) :=
  p.isSome_asRead_reference

/-- A parameter is read as declared unless its type intersects. -/
theorem shape_asRead_eq_iff : p.asRead.shape = p.shape ↔ !p.intersects := by
  constructor
  · intro equal
    exact p.type_asRead_eq_iff.mp (congrArg Parameter.type equal)
  · intro plain
    have none : p.intersects = false := by simpa using plain
    have type := p.type_asRead_eq_iff.mpr plain
    have tokens := p.tokens_asRead_eq_iff.mpr plain
    have reference := p.isByReference_asRead
    rw [none, Bool.or_false] at reference
    exact Parameter.mk.injEq .. ▸ ⟨rfl, type, rfl, rfl, reference, rfl, tokens⟩

theorem isContained_tokens : isContained p.tokens :=
  p.untyped.isContained_around p.isContained_typeTokens

end TypedParameter

/-! ## Methods -/

namespace TypedMethod

variable (m : TypedMethod)

/-- The method without the ampersands of its types. -/
def asRead : WrittenMethod :=
  { m.outline with
    followed := m.followed.map fun p => (p.1.asRead, p.2)
    last := m.last.map (·.asRead) }

theorem parameters_asRead : m.asRead.parameters = m.parameters.map (·.asRead) := by
  rw [WrittenMethod.parameters, parameters, List.map_append, asRead, List.map_map, List.map_map]
  cases m.last with
  | none => rfl
  | some p => rfl

theorem isContained_lastTokens : isContained m.lastTokens :=
  isContained_flatMap m.last.toList (·.isContained_tokens)

/-- The list is cut where the list without the ampersands is cut, into groups that give the same
parameters. -/
theorem all_groups (rest : List Token) :
    (groups 0 (m.listTokens ++ mark ")" m.outline.closeLine :: rest)).all =
        m.followed.map (·.1.tokens) ++ [m.lastTokens] ∧
      (groups 0 (m.listTokens ++ mark ")" m.outline.closeLine :: rest)).rest = rest := by
  rw [listTokens, List.append_assoc]
  exact groups_list (·.isContained_tokens) m.isContained_lastTokens m.followed m.outline.closeLine
    rest

theorem map_ofGroup : (m.followed.map (·.1.tokens) ++ [m.lastTokens]).map Parameter.ofGroup =
    (m.asRead.followed.map (·.1.tokens) ++ [m.asRead.lastTokens]).map Parameter.ofGroup := by
  have each (p : TypedParameter) :
      Parameter.ofGroup p.tokens = Parameter.ofGroup p.asRead.tokens :=
    p.ofGroup_tokens.trans p.asRead.ofGroup_tokens.symm
  have followed : (m.followed.map (·.1.tokens)).map Parameter.ofGroup =
      (m.asRead.followed.map (·.1.tokens)).map Parameter.ofGroup := by
    rw [asRead, List.map_map, List.map_map, List.map_map]
    exact List.map_congr_left fun p _ => each p.1
  rw [List.map_append, List.map_append, followed, lastTokens, WrittenMethod.lastTokens, asRead]
  cases m.last with
  | none => rfl
  | some p =>
      rw [Option.map_some, Option.toList_some, Option.toList_some, List.flatMap_singleton,
        List.flatMap_singleton, List.map_singleton, List.map_singleton, each]

/-- After the opening parenthesis the method without the ampersands is read. -/
theorem readNamed_tokens (visibility : String) (rest : List Token) :
    Method.readNamed visibility m.outline.modifiers m.outline.name
      (m.listTokens ++ mark ")" m.outline.closeLine ::
        (m.outline.returnType.toList.flatMap (·.tokens) ++ (m.outline.body.tokens ++ rest))) =
      (m.asRead.shape visibility, rest) := by
  obtain ⟨groups, after⟩ := m.all_groups
    (m.outline.returnType.toList.flatMap (·.tokens) ++ (m.outline.body.tokens ++ rest))
  obtain ⟨groupsAsRead, afterAsRead⟩ := m.asRead.all_groups
    (m.outline.returnType.toList.flatMap (·.tokens) ++ (m.outline.body.tokens ++ rest))
  refine (Method.readNamed_congr ?_ (after.trans afterAsRead.symm)).trans
    (m.asRead.readNamed_tokens visibility rest)
  rw [groups, groupsAsRead, map_ofGroup]

theorem read_headTokens (visibility : String) (rest : List Token) :
    Method.read visibility m.outline.modifiers (m.headTokens ++ rest) =
      (some (m.asRead.shape visibility), rest) := by
  have after : m.headTokens ++ rest = mark? "&" m.outline.reference ++ m.outline.name ::
      mark "(" m.outline.openLine :: (m.listTokens ++ mark ")" m.outline.closeLine ::
        (m.outline.returnType.toList.flatMap (·.tokens) ++ (m.outline.body.tokens ++ rest))) := by
    simp [headTokens]
  rw [after, Method.read_opened m.outline.reference m.outline.openLine _ m.outline.name_isName,
    readNamed_tokens]

theorem declares_tokens (visibility : String) :
    Declares visibility m.tokens [m.asRead.shape visibility] :=
  declares_method m.outline.body m.outline.modifiers_areModifiers m.outline.keyword_isFunction
    (m.read_headTokens visibility)

theorem shape_asRead (visibility : String) : m.asRead.shape visibility =
    { m.outline.shape visibility with
      parameters := m.parameters.map (·.asRead.shape)
      signature := (m.parameters.map (·.asRead.shape)).flatMap (·.tokens) } := by
  have parameters : (m.asRead.shape visibility).parameters =
      m.parameters.map (·.asRead.shape) := by
    rw [WrittenMethod.shape, parameters_asRead, List.map_map]
    rfl
  have signature : (m.asRead.shape visibility).signature =
      (m.parameters.map (·.asRead.shape)).flatMap (·.tokens) := by
    rw [WrittenMethod.shape, parameters_asRead, List.flatMap_map, List.flatMap_map]
  rw [← signature, ← parameters]
  rfl

/-- The method is read as declared unless the type of a parameter intersects. -/
theorem shape_asRead_eq_iff (visibility : String) :
    m.asRead.shape visibility = m.shape visibility ↔ ∀ p ∈ m.parameters, !p.intersects := by
  have parameters : m.parameters.map (·.asRead.shape) = m.parameters.map (·.shape) ↔
      ∀ p ∈ m.parameters, !p.intersects := by
    rw [List.map_inj_left]
    exact forall₂_congr fun p _ => p.shape_asRead_eq_iff
  rw [← parameters, shape_asRead, shape]
  constructor
  · intro equal
    exact congrArg Method.parameters equal
  · intro equal
    rw [equal, List.flatMap_map]

end TypedMethod

/-- A member of a class, or a method whose parameters have declared types. -/
inductive TypedMember where
  | plain (member : WrittenMember)
  | typed (m : TypedMethod)

namespace TypedMember

def tokens : TypedMember → List Token
  | plain member => member.tokens
  | typed m => m.tokens

/-- The member without the ampersands of its types. -/
def asRead : TypedMember → WrittenMember
  | plain member => member
  | typed m => .method m.asRead

theorem declares_tokens (visibility : String) (member : TypedMember) :
    Declares visibility member.tokens
      (member.asRead.method?.map (·.shape visibility)).toList := by
  cases member with
  | plain member => exact member.declares_tokens
  | typed m => exact m.declares_tokens visibility

theorem declares_members (visibility : String) (members : List TypedMember) :
    Declares visibility (members.flatMap (·.tokens))
      (WrittenClass.methodsOf visibility (members.map (·.asRead))) := by
  have methods : WrittenClass.methodsOf visibility (members.map (·.asRead)) =
      members.flatMap fun member => (member.asRead.method?.map (·.shape visibility)).toList := by
    rw [WrittenClass.methodsOf, List.map_filterMap, List.filterMap_eq_flatMap_toList,
      List.flatMap_map]
  rw [methods]
  exact Declares.flatMap members (declares_tokens visibility)

end TypedMember

/-- The methods of a class whose parameters have declared types are read without the ampersands of
these types. So a method is read as declared exactly when no parameter has a type that intersects;
of one that has, the type and the tokens differ from those declared, and it is read as one by
reference. -/
theorem WrittenClass.methods_read_typed (c : WrittenClass) (visibility : String)
    (members : List TypedMember) {tokens rest : List Token}
    (written : tokens.filter (!·.isTrivia) =
      c.tokensWith (members.flatMap (·.tokens)) [] ++ rest) :
    (ClassShape.read visibility tokens).methods =
        methodsOf visibility (c.members ++ members.map (·.asRead)) ∧
      ∀ m, .typed m ∈ members →
        (m.asRead.shape visibility = m.shape visibility ↔ ∀ p ∈ m.parameters, !p.intersects) ∧
        ∀ p ∈ m.parameters, (p.asRead.shape.type = p.shape.type ↔ !p.intersects) ∧
          (p.asRead.shape.tokens = p.shape.tokens ↔ !p.intersects) ∧
          p.asRead.shape.isByReference = (p.shape.isByReference || p.intersects) := by
  constructor
  · have declared := TypedMember.declares_members visibility members
    rw [c.methods_read_declares visibility declared written]
    simp [methodsOf]
  · intro m _
    refine ⟨m.shape_asRead_eq_iff visibility, ?_⟩
    intro p _
    exact ⟨p.type_asRead_eq_iff, p.tokens_asRead_eq_iff, p.isByReference_asRead⟩

/-- The name of a type, of one word. -/
def sideName (text : String) (word : !(Token.mk .name text 7).isParameterMark)
    (part : (Token.mk .name text 7).isTypeWord) : TypeName where
  words := [⟨.name, text, 7⟩]
  words_ne_nil := List.cons_ne_nil _ _
  words_areWords := by
    intro t mem
    rw [List.mem_singleton.mp mem]
    exact ⟨part, word⟩

/-- A parameter without a type. -/
def plainParameter (reference : Option Int) : WrittenParameter :=
  { sideParameter with
    nullable := none
    type := []
    reference := reference
    type_isContained := rfl
    type_isTypeWord := List.forall_mem_nil _ }

/-- A parameter of an intersection type. -/
def crossParameter : TypedParameter where
  untyped := plainParameter none
  type := some (.intersection ⟨sideName "A" rfl rfl, [(7, sideName "B" rfl rfl)]⟩)
  untyped_type := rfl

/-- A parameter by reference, of a union type. -/
def eitherParameter : TypedParameter where
  untyped := plainParameter (some 7)
  type := some (.union (.parenthesised 7 ⟨sideName "A" rfl rfl, []⟩ 7)
    [(7, .name (sideName "null" rfl rfl))])
  untyped_type := rfl

/-- A method with a parameter of an intersection type. -/
def crossMethod : TypedMethod where
  outline := drawMethod
  followed := []
  last := some crossParameter
  outline_parameters := rfl

/-- A method with one parameter that intersects and one that does not. -/
def mixedMethod : TypedMethod :=
  { crossMethod with followed := [(eitherParameter, 7)] }

theorem WrittenClass.methods_read_typed_mixedMethod :
    (figureClass.tokensWith ([.plain (.method areaMethod), .typed mixedMethod].flatMap
        TypedMember.tokens) []).filter (!·.isTrivia) =
      figureClass.tokensWith ([.plain (.method areaMethod), .typed mixedMethod].flatMap
        TypedMember.tokens) [] ++ [] ∧
      (ClassShape.read "public" (figureClass.tokensWith
        ([.plain (.method areaMethod), .typed mixedMethod].flatMap TypedMember.tokens)
          [])).methods = methodsOf "public"
            (figureClass.members ++ [.method areaMethod, .method mixedMethod.asRead]) ∧
      mixedMethod.asRead.shape "public" ≠ mixedMethod.shape "public" ∧
      eitherParameter.asRead.shape.type = eitherParameter.shape.type ∧
      eitherParameter.asRead.shape.isByReference := by
  have written : (figureClass.tokensWith ([.plain (.method areaMethod),
      .typed mixedMethod].flatMap TypedMember.tokens) []).filter (!·.isTrivia) =
        figureClass.tokensWith ([.plain (.method areaMethod), .typed mixedMethod].flatMap
          TypedMember.tokens) [] ++ [] := by
    decide
  obtain ⟨methods, each⟩ := figureClass.methods_read_typed "public"
    [.plain (.method areaMethod), .typed mixedMethod] written
  obtain ⟨declared, parameters⟩ := each mixedMethod (by simp)
  have cross : crossParameter ∈ mixedMethod.parameters := List.mem_cons_of_mem _ List.mem_cons_self
  obtain ⟨type, _, reference⟩ := parameters eitherParameter List.mem_cons_self
  refine ⟨written, methods, ?_, type.mpr rfl, reference.trans rfl⟩
  intro equal
  exact absurd (declared.mp equal crossParameter cross) (by decide)

/-- The intersection is read without its ampersand. -/
theorem WrittenClass.methods_read_crossMethod :
    (ClassShape.read "public" (emptyClass.tokensWith crossMethod.tokens [])).methods ≠
      [crossMethod.shape "public"] := by
  intro all
  have types : (ClassShape.read "public" (emptyClass.tokensWith crossMethod.tokens [])).methods.map
      (fun m => m.parameters.map (·.type)) = [[some "AB"]] := by
    decide +kernel
  rw [all] at types
  exact absurd types (by decide +kernel)

end RenderTrace
