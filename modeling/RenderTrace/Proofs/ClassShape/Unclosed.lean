import Mathlib.Algebra.Ring.Int.Defs
import RenderTrace.Proofs.ClassShape.RoundTrip

/-!
# Parameter lists that are not closed

A parameter list without its closing parenthesis is cut off at the body or semicolon
of its method, so that the methods after it are read, whenever the brackets in it
add up: as many close as open, in whatever order. Otherwise the list runs on past
the method.
-/

namespace RenderTrace
open Token ClassShape

namespace Token

/-- What tokens add to the depth of brackets. -/
def bracketSum (tokens : List Token) : Int :=
  (tokens.map depthChange).sum

/-- Outside brackets the token closes a parameter list, or cuts it off. -/
def boundsList (t : Token) : Bool :=
  [")", openBrace, ";"].contains t.text

/-- Outside brackets the token cuts off a parameter list that has not been closed. -/
def CutsOffList (t : Token) : Prop :=
  t.text = openBrace ∨ t.text = ";"

theorem of_not_boundsList {t : Token} (h : !t.boundsList) : t.text ≠ ")" ∧ ¬ t.CutsOffList := by
  simpa [boundsList, CutsOffList] using h

end Token

/-- A method whose parameter list is not closed before its body. -/
structure UnclosedMethod where
  modifiers : List Token
  keyword : Token
  reference : Option Int
  name : Token
  openLine : Int
  listed : List Token
  body : WrittenBody
  modifiers_areModifiers : ∀ t ∈ modifiers, t.isModifier ∧ !t.isBrace
  keyword_isFunction : keyword.kind = .function ∧ !keyword.isBrace
  name_isName : !name.kind.isNeverName ∧ name.text ≠ "&"
  listed_isUnclosed : ∀ t ∈ listed, !t.boundsList

namespace UnclosedMethod

/-- The tokens after the keyword. -/
def headTokens (m : UnclosedMethod) : List Token :=
  mark? "&" m.reference ++ m.name :: mark "(" m.openLine :: m.listed ++ m.body.tokens

def tokens (m : UnclosedMethod) : List Token :=
  m.modifiers ++ m.keyword :: m.headTokens

/-- The visibility modifiers, in order. -/
def visibilities (m : UnclosedMethod) : List Token :=
  m.modifiers.filter fun t => t.kind matches .modifier (.visibility _)

/-- What the tokens in place of the parameters declare. -/
def parameters (m : UnclosedMethod) : List Parameter :=
  (groups 0 m.listed).all.map Parameter.ofGroup

/-- The method that is declared; it has no return type. -/
def shape (visibility : String) (m : UnclosedMethod) : Method where
  name := m.name.text
  line := m.name.line
  visibility := match m.visibilities.getLast? with
    | some t => Text.lower t.text
    | none => visibility
  visibilityText := m.visibilities.getLast?.map (·.text)
  isStatic := m.modifiers.any (·.kind == .modifier .static)
  isAbstract := m.modifiers.any (·.kind == .modifier .abstract) || m.body.isSemicolon
  returnType := none
  signature := m.parameters.flatMap (·.tokens)
  parameters := m.parameters.filter (·.name.isSome)

end UnclosedMethod

/-! ## Where the list ends -/

namespace Token

theorem depthChange_comma {t : Token} (comma : t.text = ",") : t.depthChange = 0 := by
  simp [depthChange, comma, openBrace, closeBrace]

/-- A token that neither closes nor cuts off the list ends at most a parameter. -/
theorem groups_cons {t : Token} (depth : Int) (tokens : List Token)
    (inside : !t.boundsList) :
    groups depth (t :: tokens) =
      if depth = 0 ∧ t.text = "," then ⟨[], (groups 0 tokens).all, (groups 0 tokens).rest⟩
      else ⟨t :: (groups (depth + t.depthChange) tokens).first,
        (groups (depth + t.depthChange) tokens).later,
        (groups (depth + t.depthChange) tokens).rest⟩ := by
  obtain ⟨plain, inside⟩ := of_not_boundsList inside
  have closing : ¬ (depth = 0 ∧ t.text = ")") := fun h => plain h.2
  have ending : ¬ (depth = 0 ∧ (t.text = openBrace ∨ t.text = ";")) := fun h => inside h.2
  rw [groups, if_neg closing, if_neg ending]
  rfl

/-- A list that is not closed is cut off where its brackets add up. -/
theorem groups_cutOff {listed : List Token} {t : Token} {depth : Int} (rest : List Token)
    (unclosed : ∀ u ∈ listed, !u.boundsList) (ends : t.CutsOffList)
    (balanced : depth + bracketSum listed = 0) :
    groups depth (listed ++ t :: rest) =
      ⟨(groups depth listed).first, (groups depth listed).later, t :: rest⟩ := by
  induction listed generalizing depth with
  | nil =>
      have zero : depth = 0 := by simpa [bracketSum] using balanced
      have closing : ¬ (depth = 0 ∧ t.text = ")") := by
        rintro ⟨_, text⟩
        rcases ends with opens | semicolon
        · exact absurd (text.symm.trans opens) (by decide)
        · exact absurd (text.symm.trans semicolon) (by decide)
      have cut : groups depth (t :: rest) = ⟨[], [], t :: rest⟩ := by
        rw [groups, if_neg closing, if_pos ⟨zero, ends⟩]
      exact cut
  | cons u listed ih =>
      obtain ⟨inside, later⟩ := List.forall_mem_cons.mp unclosed
      have sum : depth + (u.depthChange + bracketSum listed) = 0 := balanced
      rw [List.cons_append, groups_cons depth _ inside, groups_cons depth _ inside]
      split
      next comma =>
        rw [comma.1, depthChange_comma comma.2, Int.zero_add] at sum
        rw [ih later sum, Groups.all, Groups.all]
      next comma =>
        rw [← Int.add_assoc] at sum
        rw [ih later sum]

/-- A list whose brackets do not add up swallows the token that should cut it off. -/
theorem length_groups_swallowed {listed : List Token} {t : Token} {depth : Int}
    (rest : List Token) (unclosed : ∀ u ∈ listed, !u.boundsList)
    (unbalanced : depth + bracketSum listed ≠ 0) :
    (groups depth (listed ++ t :: rest)).rest.length ≤ rest.length := by
  induction listed generalizing depth with
  | nil =>
      have deep : depth ≠ 0 := by simpa [bracketSum] using unbalanced
      rw [List.nil_append, groups, if_neg (fun h => deep h.1), if_neg (fun h => deep h.1),
        if_neg (fun h => deep h.1)]
      exact length_groups_rest_le _ rest
  | cons u listed ih =>
      obtain ⟨inside, later⟩ := List.forall_mem_cons.mp unclosed
      have sum : depth + (u.depthChange + bracketSum listed) ≠ 0 := unbalanced
      rw [List.cons_append, groups_cons depth _ inside]
      split
      next comma =>
        rw [comma.1, depthChange_comma comma.2, Int.zero_add] at sum
        exact ih later sum
      next comma =>
        rw [← Int.add_assoc] at sum
        exact ih later sum

/-- A list that is not closed is cut off exactly when its brackets add up. -/
theorem rest_groups_eq_iff {listed : List Token} {t : Token} (rest : List Token)
    (unclosed : ∀ u ∈ listed, !u.boundsList) (ends : t.CutsOffList) :
    (groups 0 (listed ++ t :: rest)).rest = t :: rest ↔ bracketSum listed = 0 := by
  constructor
  · intro cut
    apply Decidable.byContradiction
    intro unbalanced
    have shorter : (groups 0 (listed ++ t :: rest)).rest.length ≤ rest.length :=
      length_groups_swallowed rest unclosed (by rwa [Int.zero_add])
    rw [cut, List.length_cons] at shorter
    omega
  · intro balanced
    rw [groups_cutOff rest unclosed ends (by rw [balanced]; rfl)]

end Token

namespace WrittenBody

/-- A body begins with a token that cuts off a list. -/
theorem exists_cutsOffList (b : WrittenBody) : ∃ t more, b.tokens = t :: more ∧ t.CutsOffList := by
  cases b with
  | semicolon line => exact ⟨mark ";" line, [], rfl, Or.inr rfl⟩
  | block openLine content closeLine balanced =>
      exact ⟨mark openBrace openLine, content ++ [mark closeBrace closeLine], rfl, Or.inl rfl⟩

end WrittenBody

namespace UnclosedMethod

variable (m : UnclosedMethod)

/-- The list ends before the body exactly when its brackets add up. -/
theorem rest_groups_eq_body_iff (rest : List Token) :
    (groups 0 (m.listed ++ (m.body.tokens ++ rest))).rest = m.body.tokens ++ rest ↔
      bracketSum m.listed = 0 := by
  obtain ⟨t, more, equal, ends⟩ := m.body.exists_cutsOffList
  rw [equal]
  exact rest_groups_eq_iff (more ++ rest) m.listed_isUnclosed ends

theorem groups_listed (rest : List Token) (balanced : bracketSum m.listed = 0) :
    groups 0 (m.listed ++ (m.body.tokens ++ rest)) =
      ⟨(groups 0 m.listed).first, (groups 0 m.listed).later, m.body.tokens ++ rest⟩ := by
  obtain ⟨t, more, equal, ends⟩ := m.body.exists_cutsOffList
  rw [equal]
  exact groups_cutOff (more ++ rest) m.listed_isUnclosed ends (by rw [balanced]; rfl)

/-- After its keyword the method is read up to the end of its body. -/
theorem read_headTokens (visibility : String) (rest : List Token)
    (balanced : bracketSum m.listed = 0) :
    Method.read visibility m.modifiers (m.headTokens ++ rest) =
      (some (m.shape visibility), rest) := by
  have after : m.headTokens ++ rest = mark? "&" m.reference ++ m.name :: mark "(" m.openLine ::
      (m.listed ++ (m.body.tokens ++ rest)) := by
    simp [headTokens]
  have typed : ReturnType.read (m.body.tokens ++ rest) = (none, m.body.tokens ++ rest) :=
    read_returnType none m.body rest
  have found : Method.visibilityModifier? m.modifiers = m.visibilities.getLast? :=
    Method.visibilityModifier?_eq m.modifiers
  rw [after, Method.read_opened m.reference m.openLine _ m.name_isName]
  simp only [Method.readNamed, m.groups_listed rest balanced, typed, m.body.readBody_tokens, found]
  rw [shape, Bool.or_comm]
  cases m.visibilities.getLast? with
  | none => rfl
  | some t => rfl

/-- A method whose list is cut off declares one method. -/
theorem declares_tokens (visibility : String) (balanced : bracketSum m.listed = 0) :
    Declares visibility m.tokens [m.shape visibility] :=
  declares_method m.body m.modifiers_areModifiers m.keyword_isFunction
    fun rest => m.read_headTokens visibility rest balanced

end UnclosedMethod

namespace WrittenClass

/-- The tokens of the class with others, and more members, after its members. -/
def tokensWith (c : WrittenClass) (inserted : List Token) (later : List WrittenMember) :
    List Token :=
  c.modifiers ++ c.keyword :: c.name :: c.header ++ mark openBrace c.openLine ::
    (c.members.flatMap (·.tokens) ++ (inserted ++ (later.flatMap (·.tokens) ++
      [mark closeBrace c.closeLine])))

/-- The methods that members declare. -/
def methodsOf (visibility : String) (members : List WrittenMember) : List Method :=
  (members.filterMap (·.method?)).map (·.shape visibility)

variable (c : WrittenClass)

/-- The members of the class are read first, and then what stands after them. -/
theorem methods_read_tokensWith (visibility : String) {inserted : List Token}
    {later : List WrittenMember} {tokens rest : List Token}
    (written : tokens.filter (!·.isTrivia) = c.tokensWith inserted later ++ rest) :
    (ClassShape.read visibility tokens).methods = methodsOf visibility c.members ++
      methodsFrom visibility ((c.members.flatMap (·.tokens)).reverse ++ [])
        (inserted ++ (later.flatMap (·.tokens) ++ mark closeBrace c.closeLine :: rest)) := by
  have opened : c.tokensWith inserted later ++ rest =
      [] ++ (c.modifiers ++ c.keyword :: c.name :: c.header ++ mark openBrace c.openLine ::
        (c.members.flatMap (·.tokens) ++
          (inserted ++ (later.flatMap (·.tokens) ++ mark closeBrace c.closeLine :: rest)))) := by
    simp [tokensWith]
  obtain ⟨offset, read⟩ := c.exists_read_opened visibility rfl rfl (written.trans opened)
  rw [read]
  exact (declares_members visibility c.members [] isSettled_nil).2 _

/-- What is inserted between the members of a class is read between them. -/
theorem methods_read_declares (visibility : String) {inserted : List Token} {methods : List Method}
    (declared : Declares visibility inserted methods) {later : List WrittenMember}
    {tokens rest : List Token}
    (written : tokens.filter (!·.isTrivia) = c.tokensWith inserted later ++ rest) :
    (ClassShape.read visibility tokens).methods =
      methodsOf visibility c.members ++ (methods ++ methodsOf visibility later) := by
  have settled : IsSettled ((c.members.flatMap (·.tokens)).reverse ++ []) :=
    (declares_members visibility c.members [] isSettled_nil).1
  rw [c.methods_read_tokensWith visibility written, ← List.append_assoc inserted,
    (declared.append (declares_members visibility later)).closed c.closeLine rest settled]
  rfl

/-- A method whose parameter list is not closed, between the members of a class. The list ends
before the body of the method exactly when its brackets add up, and then all methods are read: each
of the others as if the method were not there. -/
theorem methods_read_unclosed (visibility : String) (m : UnclosedMethod)
    (later : List WrittenMember) {tokens without rest : List Token}
    (written : tokens.filter (!·.isTrivia) = c.tokensWith m.tokens later ++ rest)
    (plain : without.filter (!·.isTrivia) = c.tokensWith [] later ++ rest) :
    (ClassShape.read visibility without).methods =
        methodsOf visibility c.members ++ methodsOf visibility later ∧
      (∀ more, (groups 0 (m.listed ++ (m.body.tokens ++ more))).rest = m.body.tokens ++ more ↔
        bracketSum m.listed = 0) ∧
      (bracketSum m.listed = 0 → (ClassShape.read visibility tokens).methods =
        methodsOf visibility c.members ++ m.shape visibility :: methodsOf visibility later) := by
  refine ⟨?_, m.rest_groups_eq_body_iff, ?_⟩
  · exact c.methods_read_declares visibility declares_nil plain
  · intro balanced
    exact c.methods_read_declares visibility (m.declares_tokens visibility balanced) written

end WrittenClass

/-- A method with a closing and an opening bracket where its parameters should be. -/
def listedMethod : UnclosedMethod where
  modifiers := [⟨.modifier (.visibility .privateAccess), "private", 7⟩]
  keyword := ⟨.function, "function", 7⟩
  reference := none
  name := ⟨.name, "listed", 7⟩
  openLine := 7
  listed := [mark "]" 7, ⟨.var, "$side", 7⟩, mark "," 7, mark "[" 7]
  body := .block 7 [mark ";" 7] 7 rfl
  modifiers_areModifiers := by decide
  keyword_isFunction := by decide
  name_isName := by decide
  listed_isUnclosed := by decide

theorem WrittenClass.methods_read_unclosed_listedMethod :
    bracketSum listedMethod.listed = 0 ∧
      (ClassShape.read "public"
        (figureClass.tokensWith listedMethod.tokens [.method drawMethod])).methods =
          methodsOf "public" figureClass.members ++ listedMethod.shape "public" ::
            methodsOf "public" [.method drawMethod] := by
  have balanced : bracketSum listedMethod.listed = 0 := by decide
  have written : (figureClass.tokensWith listedMethod.tokens [.method drawMethod]).filter
      (!·.isTrivia) = figureClass.tokensWith listedMethod.tokens [.method drawMethod] ++ [] := by
    decide
  have plain : (figureClass.tokensWith [] [.method drawMethod]).filter (!·.isTrivia) =
      figureClass.tokensWith [] [.method drawMethod] ++ [] := by
    decide
  exact ⟨balanced, (figureClass.methods_read_unclosed "public" listedMethod [.method drawMethod]
    written plain).2.2 balanced⟩

/-- A method whose default opens a bracket that nothing closes. -/
def openMethod : UnclosedMethod where
  modifiers := []
  keyword := ⟨.function, "function", 7⟩
  reference := none
  name := ⟨.name, "broken", 7⟩
  openLine := 7
  listed := [⟨.var, "$a", 7⟩, mark "=" 7, mark "[" 7]
  body := .semicolon 7
  modifiers_areModifiers := areMethodModifiers_nil
  keyword_isFunction := by decide
  name_isName := by decide
  listed_isUnclosed := by decide

/-- A class without members. -/
def emptyClass : WrittenClass where
  modifiers := []
  form := .classForm
  keyword := ⟨.form .classForm, "class", 1⟩
  name := ⟨.name, "A", 1⟩
  header := []
  openLine := 1
  members := []
  closeLine := 11
  modifiers_areModifiers := areModifiers_nil
  keyword_isForm := by decide
  name_isName := rfl
  header_isOpen := noneOpensBrace_nil

/-- The open bracket swallows the semicolon and the method behind it. -/
theorem WrittenClass.methods_read_openMethod :
    ¬ ∃ m, (ClassShape.read "public"
      (emptyClass.tokensWith openMethod.tokens [.method drawMethod])).methods =
        methodsOf "public" emptyClass.members ++ m :: methodsOf "public" [.method drawMethod] := by
  rintro ⟨m, all⟩
  have count : (ClassShape.read "public"
      (emptyClass.tokensWith openMethod.tokens [.method drawMethod])).methods.length = 1 := by
    decide +kernel
  rw [all, List.length_append, List.length_cons] at count
  exact absurd count (by decide)

end RenderTrace
