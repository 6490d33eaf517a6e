import RenderTrace.Proofs.ClassShape.Unclosed

/-!
# Stray function keywords

A keyword for a function between the members of a class, alone or with a name behind
it, declares no method. With a name it leaves the other methods as they are. Alone it
takes the token behind it for its name, and goes on after that: this does no harm
unless the token is a keyword itself, or a parenthesis follows.
-/

namespace RenderTrace
open Token ClassShape

/-- A function keyword without a parameter list, alone or with a name. -/
structure StrayKeyword where
  keyword : Token
  name : Option Token
  keyword_isFunction : keyword.kind = .function ∧ !keyword.isBrace
  name_isName : ∀ t ∈ name, !t.kind.isNeverName ∧ t.text ≠ "&" ∧ !t.isModifier

namespace StrayKeyword

def tokens (s : StrayKeyword) : List Token :=
  s.keyword :: s.name.toList

/-- No parenthesis comes first. -/
def isUnlisted (tokens : List Token) : Bool :=
  tokens.head?.all fun t => t.text != "("

/-- What comes first is not needed by a keyword without a name: it can be no name, or it is no
keyword itself and has no parenthesis behind it. -/
def isUnneeded : List Token → Bool
  | [] => true
  | t :: rest => t.text != "&" &&
    (t.kind.isNeverName || t.kind != .function && !t.isBrace && isUnlisted rest)

/-- The tokens may come behind the keyword without harm. -/
def spares (s : StrayKeyword) (following : List Token) : Bool :=
  if s.name.isSome then isUnlisted following else isUnneeded following

end StrayKeyword

/-- No word of a method before its parameters is spelled like the ampersand or a parenthesis. -/
def WrittenMethod.HasWords (m : WrittenMethod) : Prop :=
  ∀ t ∈ m.modifiers ++ [m.keyword, m.name], t.text ≠ "&" ∧ t.text ≠ "("

/-! ## Keywords that declare nothing -/

namespace Method

variable {visibility : String} {modifiers rest : List Token} {name : Token}

/-- Before a token that can be no name nothing is read. -/
theorem read_nameless (plain : name.text ≠ "&") (never : name.kind.isNeverName) :
    read visibility modifiers (name :: rest) = (none, name :: rest) := by
  rw [read]
  simp only [if_neg plain, if_pos never]

/-- A name without a parenthesis behind it is read, but no method. -/
theorem read_unlisted (plain : name.text ≠ "&") (named : !name.kind.isNeverName)
    (unlisted : StrayKeyword.isUnlisted rest) :
    read visibility modifiers (name :: rest) = (none, rest) := by
  have isName : ¬ (name.kind.isNeverName = true) := by simpa using named
  rw [read]
  simp only [if_neg plain, if_neg isName]
  cases rest with
  | nil => rfl
  | cons t inside =>
      have other : t.text ≠ "(" := by simpa [StrayKeyword.isUnlisted] using unlisted
      simp only [if_neg other]

end Method

namespace StrayKeyword

variable (s : StrayKeyword) {visibility : String} {seen following : List Token}

/-- No modifier is left waiting after the keyword. -/
theorem isSettled_tokens (seen : List Token) : IsSettled (s.tokens.reverse ++ seen) := by
  have keyword : !s.keyword.isModifier := by
    simp [isModifier, s.keyword_isFunction.1, Kind.isModifier]
  intro t head
  cases equal : s.name with
  | none =>
      rw [tokens, equal] at head
      obtain rfl : s.keyword = t := Option.some.inj head
      exact keyword
  | some name =>
      rw [tokens, equal] at head
      obtain rfl : name = t := Option.some.inj head
      exact (s.name_isName name equal).2.2

/-- A token that is taken for the name of a keyword is passed with it. -/
theorem methodsFrom_taken {keyword t : Token} {rest : List Token}
    (isFunction : keyword.kind = .function ∧ !keyword.isBrace) (plain : t.text ≠ "&")
    (named : !t.kind.isNeverName) (unlisted : isUnlisted rest) :
    methodsFrom visibility seen (keyword :: t :: rest) =
      methodsFrom visibility (t :: keyword :: seen) rest := by
  have between : passed (keyword :: t :: rest) rest = [t, keyword] :=
    passed_append [keyword, t] rest
  rw [methodsFrom_function isFunction.2 isFunction.1 (Method.read_unlisted plain named unlisted),
    between]
  rfl

/-- A keyword without a name passes over nothing that declares a method. -/
theorem methodsFrom_alone {keyword : Token}
    (isFunction : keyword.kind = .function ∧ !keyword.isBrace) (unneeded : isUnneeded following) :
    methodsFrom visibility seen (keyword :: following) =
      methodsFrom visibility (keyword :: seen) following := by
  obtain ⟨kind, brace⟩ := isFunction
  cases following with
  | nil =>
      rw [methodsFrom_function brace kind rfl]
      rfl
  | cons t rest =>
      rw [isUnneeded, Bool.and_eq_true, bne_iff_ne] at unneeded
      obtain ⟨plain, unneeded⟩ := unneeded
      by_cases never : t.kind.isNeverName
      · have between : passed (keyword :: t :: rest) (t :: rest) = [keyword] :=
          passed_append [keyword] (t :: rest)
        rw [methodsFrom_function brace kind (Method.read_nameless plain never), between]
        rfl
      · have named : !t.kind.isNeverName := by simpa using never
        have taken := (Bool.or_eq_true_iff.mp unneeded).resolve_left never
        rw [Bool.and_eq_true, Bool.and_eq_true, bne_iff_ne] at taken
        obtain ⟨⟨other, notBrace⟩, unlisted⟩ := taken
        rw [methodsFrom_taken ⟨kind, brace⟩ plain named unlisted,
          methodsFrom_plain rest notBrace other]

/-- What a stray keyword spares is read behind it as it would be without it. -/
theorem methodsFrom_spared (spared : s.spares following) :
    methodsFrom visibility seen (s.tokens ++ following) =
      methodsFrom visibility (s.tokens.reverse ++ seen) following := by
  rw [spares] at spared
  cases equal : s.name with
  | some name =>
      obtain ⟨named, plain, _⟩ := s.name_isName name equal
      rw [equal, Option.isSome_some, if_pos rfl] at spared
      rw [tokens, equal]
      exact methodsFrom_taken s.keyword_isFunction plain named spared
  | none =>
      rw [equal, Option.isSome_none, if_neg Bool.false_ne_true] at spared
      rw [tokens, equal]
      exact methodsFrom_alone s.keyword_isFunction spared

theorem isUnlisted_modifiers (m : WrittenMethod) {modifiers : List Token}
    (words : ∀ t ∈ modifiers ++ [m.keyword, m.name], t.text ≠ "&" ∧ t.text ≠ "(")
    (rest : List Token) : isUnlisted (modifiers ++ m.keyword :: rest) := by
  cases modifiers with
  | nil => simpa [isUnlisted] using (words m.keyword (by simp)).2
  | cons t more => simpa [isUnlisted] using (words t (by simp)).2

/-- Before a method a stray keyword does no harm when it has a name or the method has modifiers. -/
theorem spares_method (m : WrittenMethod) (words : m.HasWords)
    (apart : s.name.isSome ∨ m.modifiers ≠ []) (rest : List Token) :
    s.spares (m.tokens ++ rest) := by
  have split : m.tokens ++ rest = m.modifiers ++ m.keyword :: (m.headTokens ++ rest) := by
    simp [WrittenMethod.tokens]
  have unlisted : isUnlisted (m.tokens ++ rest) := split ▸ isUnlisted_modifiers m words _
  rw [spares]
  split
  · exact unlisted
  next alone =>
    obtain ⟨t, more, equal⟩ := List.exists_cons_of_ne_nil (apart.resolve_left alone)
    have mem : t ∈ m.modifiers := by rw [equal]; exact List.mem_cons_self
    have ampersand := (words t (List.mem_append_left _ mem)).1
    obtain ⟨modifier, brace⟩ := m.modifiers_areModifiers t mem
    have noBrace : t.isBrace = false := by simpa using brace
    have kind := kind_ne_of_isModifier .function modifier rfl
    have behind : isUnlisted (more ++ m.keyword :: (m.headTokens ++ rest)) := by
      apply isUnlisted_modifiers m
      intro u later
      apply words u
      rw [equal]
      exact List.mem_cons_of_mem _ later
    rw [split, equal, List.cons_append, isUnneeded]
    simp [ampersand, kind, noBrace, behind]

/-- At the end of the class a stray keyword does no harm. -/
theorem spares_closed (closeLine : Int) (rest : List Token) :
    s.spares (mark closeBrace closeLine :: rest) := by
  rw [spares]
  split
  · rfl
  · rfl

/-- A keyword without a name that stands before a method without modifiers takes the keyword of that
method, and the method is lost. -/
theorem methodsFrom_lost (m : WrittenMethod) (alone : s.name = none) (bare : m.modifiers = [])
    (words : m.HasWords) (aside : isAside m.headTokens)
    (rest : List Token) :
    methodsFrom visibility seen (s.tokens ++ (m.tokens ++ rest)) =
      methodsFrom visibility (m.headTokens.reverse ++ m.keyword :: s.keyword :: seen) rest := by
  have named : !m.keyword.kind.isNeverName := by rw [m.keyword_isFunction.1]; rfl
  have plain : m.keyword.text ≠ "&" := (words m.keyword (by simp)).1
  have unlisted : isUnlisted (m.headTokens ++ rest) := by
    cases reference : m.reference with
    | none =>
        have name : m.name.text ≠ "(" := (words m.name (by simp)).2
        simp [WrittenMethod.headTokens, reference, mark?, isUnlisted, name]
    | some line => simp [WrittenMethod.headTokens, reference, mark?, isUnlisted]
  rw [tokens, alone, WrittenMethod.tokens, bare]
  exact (methodsFrom_taken s.keyword_isFunction plain named unlisted).trans
    (methodsFrom_aside rest aside)

end StrayKeyword

namespace WrittenClass

variable (c : WrittenClass)

/-- A stray keyword between the members of a class. The methods are the same with it and without it
when it spares what follows. It always does so at the end of the class, and before a method when it
has a name or the method has modifiers; otherwise that method is lost, and no other. -/
theorem methods_read_stray (visibility : String) (s : StrayKeyword) (later : List WrittenMember)
    {tokens without rest : List Token}
    (written : tokens.filter (!·.isTrivia) = c.tokensWith s.tokens later ++ rest)
    (plain : without.filter (!·.isTrivia) = c.tokensWith [] later ++ rest) :
    (ClassShape.read visibility without).methods =
        methodsOf visibility c.members ++ methodsOf visibility later ∧
      (s.spares (later.flatMap (·.tokens) ++ mark closeBrace c.closeLine :: rest) →
        (ClassShape.read visibility tokens).methods =
          (ClassShape.read visibility without).methods) ∧
      (later = [] → (ClassShape.read visibility tokens).methods =
        (ClassShape.read visibility without).methods) ∧
      ∀ m members, later = .method m :: members → m.HasWords →
        (s.name.isSome ∨ m.modifiers ≠ [] → (ClassShape.read visibility tokens).methods =
          (ClassShape.read visibility without).methods) ∧
        (s.name = none → m.modifiers = [] → isAside m.headTokens →
          (ClassShape.read visibility tokens).methods =
            methodsOf visibility c.members ++ methodsOf visibility members) := by
  have unspoilt : (ClassShape.read visibility without).methods =
      methodsOf visibility c.members ++ methodsOf visibility later :=
    c.methods_read_declares visibility declares_nil plain
  have same (spared : s.spares (later.flatMap (·.tokens) ++ mark closeBrace c.closeLine :: rest)) :
      (ClassShape.read visibility tokens).methods =
        (ClassShape.read visibility without).methods := by
    rw [unspoilt, c.methods_read_tokensWith visibility written, s.methodsFrom_spared spared,
      (declares_members visibility later).closed c.closeLine rest (s.isSettled_tokens _)]
    rfl
  refine ⟨unspoilt, same, ?_, ?_⟩
  · rintro rfl
    exact same (s.spares_closed c.closeLine rest)
  rintro m members rfl words
  rw [List.flatMap_cons, List.append_assoc] at same
  refine ⟨fun apart => same (s.spares_method m words apart _), ?_⟩
  intro alone bare aside
  have settled : IsSettled (m.headTokens.reverse ++ m.keyword :: s.keyword ::
      ((c.members.flatMap (·.tokens)).reverse ++ [])) :=
    isSettled_body m.body _ _
  rw [c.methods_read_tokensWith visibility written, List.flatMap_cons, List.append_assoc,
    WrittenMember.tokens, s.methodsFrom_lost m alone bare words aside,
    (declares_members visibility members).closed c.closeLine rest settled]
  rfl

end WrittenClass

/-- A keyword for a function that has no name. -/
def loneKeyword : StrayKeyword where
  keyword := ⟨.function, "function", 3⟩
  name := none
  keyword_isFunction := by decide
  name_isName := by simp

theorem hasWords_areaMethod : areaMethod.HasWords := by
  rw [WrittenMethod.HasWords]
  decide

theorem hasWords_drawMethod : drawMethod.HasWords := by
  rw [WrittenMethod.HasWords]
  decide

/-- The methods are kept before one with modifiers, and one is lost before one without. -/
theorem WrittenClass.methods_read_stray_loneKeyword :
    (ClassShape.read "public" (figureClass.tokensWith loneKeyword.tokens
        [.method areaMethod])).methods =
      (ClassShape.read "public" (figureClass.tokensWith [] [.method areaMethod])).methods ∧
    (ClassShape.read "public" (figureClass.tokensWith loneKeyword.tokens
        [.method drawMethod, .method areaMethod])).methods =
      methodsOf "public" figureClass.members ++ methodsOf "public" [.method areaMethod] := by
  have significant (inserted : List Token) (later : List WrittenMember)
      (plain : ∀ t ∈ figureClass.tokensWith inserted later, !t.isTrivia) :
      (figureClass.tokensWith inserted later).filter (!·.isTrivia) =
        figureClass.tokensWith inserted later ++ [] := by
    rw [List.filter_eq_self.mpr plain, List.append_nil]
  constructor
  · exact ((figureClass.methods_read_stray "public" loneKeyword [.method areaMethod]
      (significant _ _ (by decide)) (significant _ _ (by decide))).2.2.2 areaMethod [] rfl
        hasWords_areaMethod).1 (.inr (by decide))
  · exact ((figureClass.methods_read_stray "public" loneKeyword
      [.method drawMethod, .method areaMethod]
      (significant _ _ (by decide)) (significant [] _ (by decide))).2.2.2 drawMethod
        [.method areaMethod] rfl hasWords_drawMethod).2 rfl rfl (by decide)

/-- The method behind the keyword is lost. -/
theorem WrittenClass.methods_read_loneKeyword :
    (ClassShape.read "public"
        (emptyClass.tokensWith loneKeyword.tokens [.method drawMethod])).methods ≠
      (ClassShape.read "public" (emptyClass.tokensWith [] [.method drawMethod])).methods := by
  decide +kernel

end RenderTrace
