import RenderTrace.Proofs.ClassShape.Nested
import RenderTrace.Proofs.SourceTree

/-!
# Methods by their marks alone

What stands between the parentheses of a method need not be parameters: any tokens
with nested brackets may. Where the list is cut off inside, the reader takes the cut
for the end of the method. What is left of the method then declares nothing, so one
method is read all the same.
-/

namespace RenderTrace
open Token ClassShape

/-- What ends a method: a semicolon, or a block of any tokens with balanced braces. -/
inductive SpelledBody where
  | semicolon (mark : Token) (isMark : mark.text = ";")
  | block (opening : Token) (content : List Token) (closing : Token)
    (opens : opening.text = openBrace) (balanced : bracesBalanced content)
    (closes : closing.text = closeBrace)

def SpelledBody.tokens : SpelledBody → List Token
  | .semicolon mark _ => [mark]
  | .block opening content closing _ _ _ => opening :: content ++ [closing]

/-- A method by its marks: modifiers, the keyword, an optional ampersand, the name, nested brackets
between parentheses, an optional colon and type, and the body. -/
structure SpelledMethod where
  modifiers : List Token
  keyword : Token
  reference : Option Token
  name : Token
  opening : Token
  listed : List Token
  closing : Token
  returnType : Option (Token × List Token)
  body : SpelledBody
  modifiers_areModifiers : ∀ t ∈ modifiers, t.isModifier
  keyword_isFunction : keyword.kind = .function
  reference_isMark : ∀ t ∈ reference, t.text = "&"
  name_isWord : name.kind = .name ∨ name.kind ∈ Kind.keywords
  opening_isMark : opening.text = "("
  listed_isNested : isNested listed
  listed_hasNoFunction : ∀ t ∈ listed, t.kind ≠ .function
  closing_isMark : closing.text = ")"
  returnType_isType : ∀ r ∈ returnType, r.1.text = ":" ∧
    ∀ t ∈ r.2, t.kind ≠ .function ∧ !t.isBrace ∧ t.text ≠ ";"

namespace SpelledMethod

/-- The colon and the type. -/
def typeTokens (m : SpelledMethod) : List Token :=
  m.returnType.toList.flatMap fun r => r.1 :: r.2

/-- The tokens after the list. -/
def endTokens (m : SpelledMethod) : List Token :=
  m.typeTokens ++ m.body.tokens

/-- The tokens after the opening parenthesis. -/
def insideTokens (m : SpelledMethod) : List Token :=
  m.listed ++ m.closing :: m.endTokens

def tokens (m : SpelledMethod) : List Token :=
  m.modifiers ++ m.keyword :: (m.reference.toList ++ m.name :: m.opening :: m.insideTokens)

end SpelledMethod

namespace SpelledBody

variable (b : SpelledBody)

theorem exists_head : ∃ t more, b.tokens = t :: more ∧ t.CutsOffList := by
  cases b with
  | semicolon mark isMark => exact ⟨mark, [], rfl, .inr isMark⟩
  | block opening content closing opens _ _ => exact ⟨opening, content ++ [closing], rfl, .inl opens⟩

theorem readBody_tokens (rest : List Token) : (Method.readBody (b.tokens ++ rest)).2 = rest := by
  cases b with
  | semicolon mark isMark =>
      rw [tokens, List.singleton_append, Method.readBody, if_pos isMark]
  | block opening content closing opens balanced closes =>
      have other : openBrace ≠ ";" := by decide
      have block : afterBlock (opening :: content ++ closing :: rest) = rest :=
        afterBlock_block rest balanced closes
      rw [List.cons_append] at block
      rw [tokens, List.append_assoc, List.cons_append, List.singleton_append, Method.readBody,
        opens, if_neg other, if_pos rfl, block]

theorem isAside_tokens (meant : ∀ t ∈ b.tokens, t.IsMeant) : isAside b.tokens := by
  cases b with
  | semicolon mark isMark =>
      have meant : mark.IsMeant := meant mark List.mem_cons_self
      refine isAside_of_plain fun t mem => ?_
      obtain rfl : t = mark := List.mem_singleton.mp mem
      refine ⟨by simp [isBrace, opensBrace, closesBrace, isMark, openBrace, closeBrace], ?_⟩
      exact fun kind => meant.not_mark (by rw [kind]; rfl) (by simp [isMark, markTexts])
  | block opening content closing opens balanced closes =>
      have isOpen : opensBrace opening := by simpa [opensBrace] using opens
      have notOpen : opensBrace closing = false := by
        simp [opensBrace, closes, closeBrace, openBrace]
      have isClose : closesBrace closing := by simpa [closesBrace] using closes
      have inside := asideFrom_balanced 0 [closing] balanced
      rw [Nat.zero_add] at inside
      rw [tokens, isAside, List.cons_append, asideFrom, if_pos isOpen, inside, asideFrom, notOpen,
        if_neg Bool.false_ne_true, if_pos isClose]
      rfl

end SpelledBody

/-- What cuts off a list is no colon and no part of a type. -/
theorem Token.CutsOffList.isNoPart {t : Token} (ends : t.CutsOffList) :
    t.text ≠ ":" ∧ ReturnType.isPart t = false := by
  rcases ends with opens | semicolon
  · simp [ReturnType.isPart, opens, openBrace]
  · simp [ReturnType.isPart, semicolon]

/-- After an optional ampersand and the name, the parenthesis opens the list. -/
theorem Method.read_marked {visibility : String} {modifiers : List Token} {reference : Option Token}
    {name opening : Token} (inside : List Token) (isMark : ∀ t ∈ reference, t.text = "&")
    (named : name.kind.isNeverName = false) (plain : name.text ≠ "&")
    (opens : opening.text = "(") :
    Method.read visibility modifiers (reference.toList ++ name :: opening :: inside) =
      (some (readNamed visibility modifiers name inside).1,
        (readNamed visibility modifiers name inside).2) := by
  have named : ¬ (name.kind.isNeverName = true) := by simp [named]
  cases reference with
  | none =>
      rw [Option.toList_none, List.nil_append, Method.read]
      simp only [if_neg plain, if_neg named, opens, if_pos]
  | some t =>
      rw [Option.toList_some, List.singleton_append, Method.read]
      simp only [isMark t rfl, if_neg named, opens, if_pos]

namespace SpelledMethod

variable (m : SpelledMethod)

theorem name_isNamed : m.name.kind.isNeverName = false := by
  have keyword : ∀ kind ∈ Kind.keywords, kind.isNeverName = false := by decide
  rcases m.name_isWord with name | word
  · rw [name]
    rfl
  · exact keyword _ word

/-- The type is read up to the body. -/
theorem read_typeTokens (rest : List Token) :
    (ReturnType.read (m.typeTokens ++ (m.body.tokens ++ rest))).2 = m.body.tokens ++ rest := by
  obtain ⟨t, more, equal, ends⟩ := m.body.exists_head
  obtain ⟨noColon, noPart⟩ := ends.isNoPart
  rw [equal, typeTokens]
  cases type : m.returnType with
  | none =>
      rw [Option.toList_none, List.flatMap_nil, List.nil_append, List.cons_append,
        ReturnType.read, if_neg noColon]
  | some r =>
      obtain ⟨colon, words⟩ := m.returnType_isType r type
      have parts : ∀ u ∈ r.2, ReturnType.isPart u := by
        intro u mem
        obtain ⟨kind, brace, semicolon⟩ := words u mem
        obtain ⟨opening, closing⟩ := ne_brace_of_not_isBrace brace
        simp [ReturnType.isPart, semicolon, opening, closing, kind]
      rw [Option.toList_some, List.flatMap_singleton, List.cons_append, ReturnType.read,
        if_pos colon]
      simp only [List.dropWhile_append_of_pos parts, List.cons_append, List.dropWhile_cons, noPart,
        Bool.false_eq_true, if_false]

/-- What follows the list declares nothing. -/
theorem isAside_endTokens (meant : ∀ t ∈ m.tokens, t.IsMeant) :
    isAside (m.closing :: m.endTokens) := by
  have mark {t : Token} (mem : t ∈ m.tokens) (isMark : t.text ∈ markTexts) : t.kind ≠ .function :=
    fun kind => (meant t mem).not_mark (by rw [kind]; rfl) isMark
  have plain : ∀ t ∈ m.closing :: m.typeTokens, !t.isBrace ∧ t.kind ≠ .function := by
    rw [List.forall_mem_cons]
    constructor
    · have text := m.closing_isMark
      exact ⟨by simp [isBrace, opensBrace, closesBrace, text, openBrace, closeBrace],
        mark (by simp [tokens, insideTokens]) (by simp [text, markTexts])⟩
    · intro t mem
      obtain ⟨r, some, mem⟩ := List.mem_flatMap.mp mem
      obtain ⟨text, words⟩ := m.returnType_isType r (Option.mem_toList.mp some)
      rcases List.mem_cons.mp mem with rfl | word
      · refine ⟨by simp [isBrace, opensBrace, closesBrace, text, openBrace, closeBrace],
          mark ?_ (by simp [text, markTexts])⟩
        have colon : r.1 ∈ m.typeTokens := List.mem_flatMap.mpr ⟨r, some, List.mem_cons_self⟩
        simp [tokens, insideTokens, endTokens, colon]
      · exact ⟨(words t word).2.1, (words t word).1⟩
  have body := m.body.isAside_tokens fun t mem => meant t (by
    simp [tokens, insideTokens, endTokens, mem])
  exact isAside_append (isAside_of_plain plain) body

/-- A list that is cut off leaves tokens of the list that declare nothing. -/
theorem exists_aside_readBody {t : Token} {more : List Token} (rest : List Token)
    (ends : t.CutsOffList) (aside : isAside (t :: more)) :
    ∃ left, isAside left ∧
      (Method.readBody (ReturnType.read (t :: more ++ rest)).2).2 = left ++ rest := by
  have noType : (ReturnType.read (t :: more ++ rest)).2 = t :: (more ++ rest) := by
    rw [List.cons_append, ReturnType.read, if_neg ends.isNoPart.1]
  rw [noType]
  rcases ends with opens | semicolon
  · have isOpen : opensBrace t := by simpa [opensBrace] using opens
    have other : openBrace ≠ ";" := by decide
    rw [isAside, asideFrom, if_pos isOpen] at aside
    obtain ⟨inner, later, _, aside, after⟩ := exists_afterClose_of_aside aside
    refine ⟨later, aside, ?_⟩
    have block : afterBlock (t :: (more ++ rest)) = later ++ rest := after rest
    rw [Method.readBody, opens, if_neg other, if_pos rfl, block]
  · have noBrace : opensBrace t = false ∧ closesBrace t = false := by
      simp [opensBrace, closesBrace, semicolon, openBrace, closeBrace]
    rw [isAside, asideFrom, noBrace.1, noBrace.2] at aside
    refine ⟨more, (Bool.and_eq_true_iff.mp aside).2, ?_⟩
    rw [Method.readBody, if_pos semicolon]

/-- Reading stops at the end of the method, or before tokens of it that declare nothing. -/
theorem exists_aside_readNamed (meant : ∀ t ∈ m.tokens, t.IsMeant) (visibility : String)
    (modifiers rest : List Token) :
    ∃ aside, isAside aside ∧
      (Method.readNamed visibility modifiers m.name (m.insideTokens ++ rest)).2 = aside ++ rest := by
  have split : m.insideTokens ++ rest =
      m.listed ++ m.closing :: (m.typeTokens ++ (m.body.tokens ++ rest)) := by
    simp [insideTokens, endTokens]
  have read : (Method.readNamed visibility modifiers m.name (m.insideTokens ++ rest)).2 =
      (Method.readBody (ReturnType.read (groups 0 (m.insideTokens ++ rest)).rest).2).2 := rfl
  rw [read, split]
  obtain closed | ⟨t, more, suffix, ends, nested, cut⟩ := rest_groups_nested
    (m.typeTokens ++ (m.body.tokens ++ rest)) m.listed_isNested m.closing_isMark
  · refine ⟨[], rfl, ?_⟩
    rw [List.length_nil, Int.natCast_zero] at closed
    rw [closed, read_typeTokens, SpelledBody.readBody_tokens, List.nil_append]
  · rw [List.length_nil, Int.natCast_zero] at cut
    have aside : isAside (t :: more) :=
      asideFrom_of_nested nested fun u mem => m.listed_hasNoFunction u (suffix.subset mem)
    obtain ⟨left, aside, after⟩ := exists_aside_readBody
      (m.closing :: (m.typeTokens ++ (m.body.tokens ++ rest))) ends aside
    refine ⟨left ++ m.closing :: m.endTokens, isAside_append aside (m.isAside_endTokens meant), ?_⟩
    rw [cut, after]
    simp [endTokens]

variable {visibility : String}

/-- A method by its marks is read as one method of its name. -/
theorem exists_methodsFrom_tokens {seen : List Token} (rest : List Token)
    (meant : ∀ t ∈ m.tokens, t.IsMeant) :
    ∃ found passed, methodsFrom visibility seen (m.tokens ++ rest) =
      found :: methodsFrom visibility passed rest ∧ found.name = m.name.text := by
  have noMark {t : Token} (mem : t ∈ m.tokens) (named : t.kind.isNeverName = false) :
      !t.isBrace ∧ t.text ≠ "&" := by
    have noMark := (meant t mem).not_mark named
    simp only [markTexts, List.mem_cons, not_or] at noMark
    obtain ⟨_, _, _, _, opening, closing, ampersand, _⟩ := noMark
    exact ⟨by simp [isBrace, opensBrace, closesBrace, opening, closing], ampersand⟩
  have modifiers : ∀ t ∈ m.modifiers, t.isModifier ∧ !t.isBrace := by
    intro t mem
    have modifier := m.modifiers_areModifiers t mem
    refine ⟨modifier, (noMark (by simp [tokens, mem]) ?_).1⟩
    rw [isModifier] at modifier
    revert modifier
    cases t.kind <;> simp [Kind.isModifier, Kind.isNeverName]
  have keyword : !m.keyword.isBrace :=
    (noMark (by simp [tokens]) (by rw [m.keyword_isFunction]; rfl)).1
  have name : m.name.text ≠ "&" := (noMark (by simp [tokens]) m.name_isNamed).2
  have split : m.tokens ++ rest = m.modifiers ++ (m.keyword ::
      (m.reference.toList ++ m.name :: m.opening :: (m.insideTokens ++ rest))) := by
    simp [tokens]
  obtain ⟨aside, isAside, after⟩ := m.exists_aside_readNamed meant visibility
    (modifiersBefore (m.modifiers.reverse ++ seen)) rest
  have read : Method.read visibility (modifiersBefore (m.modifiers.reverse ++ seen))
      (m.reference.toList ++ m.name :: m.opening :: (m.insideTokens ++ rest)) = (some _, _) :=
    Method.read_marked _ m.reference_isMark m.name_isNamed name m.opening_isMark
  rw [after] at read
  rw [split, methodsFrom_modifiers _ modifiers,
    methodsFrom_function keyword m.keyword_isFunction read, methodsFrom_aside rest isAside]
  exact ⟨_, _, rfl, rfl⟩

end SpelledMethod

end RenderTrace
