import RenderTrace.ClassShape
import RenderTrace.ClassShape.Block

/-!
# Parameter lists

A parameter list is cut at the commas outside brackets, and each group of tokens
between them gives one parameter. A list without a closing parenthesis ends
before the next brace or semicolon outside brackets.
-/

namespace RenderTrace

namespace Token

/-- The texts of tokens, one after another. -/
def joinTexts (tokens : List Token) : String :=
  String.join (tokens.map (·.text))

/-- The texts, joined, unless there are none. -/
def joinTexts? (tokens : List Token) : Option String :=
  if tokens.isEmpty then none else some (joinTexts tokens)

/-- The groups of a parameter list, and the tokens after the list. -/
structure Groups where
  first : List Token
  later : List (List Token)
  rest : List Token

/-- What a token adds to the depth of brackets. -/
def depthChange (t : Token) : Int :=
  if t.text ∈ ["(", "[", openBrace, "#["] then 1
  else if t.text ∈ [")", "]", closeBrace] then -1
  else 0

/-- Cuts a parameter list that is open at the given depth of brackets, which a stray closing
bracket makes negative. -/
def groups (depth : Int) : List Token → Groups
  | [] => ⟨[], [], []⟩
  | t :: rest =>
    if depth = 0 ∧ t.text = ")" then ⟨[], [], rest⟩
    else if depth = 0 ∧ (t.text = openBrace ∨ t.text = ";") then ⟨[], [], t :: rest⟩
    else if depth = 0 ∧ t.text = "," then
      let g := groups 0 rest
      ⟨[], g.first :: g.later, g.rest⟩
    else
      let g := groups (depth + t.depthChange) rest
      ⟨t :: g.first, g.later, g.rest⟩

theorem length_groups_rest_le (depth : Int) (tokens : List Token) :
    (groups depth tokens).rest.length ≤ tokens.length := by
  induction tokens generalizing depth with
  | nil => simp [groups]
  | cons t rest ih =>
    have split := ih 0
    have deeper := ih (depth + t.depthChange)
    unfold groups
    split
    · simp
    · split
      · simp
      · split
        · simp only [List.length_cons]; omega
        · simp only [List.length_cons]; omega

/-- The tokens outside attributes; `depth` counts the brackets open inside one. -/
def outsideAttributes (depth : Nat) : List Token → List Token
  | [] => []
  | t :: rest =>
    if depth = 0 then
      if t.text = "#[" then outsideAttributes 1 rest else t :: outsideAttributes 0 rest
    else if t.text = "[" ∨ t.text = "#[" then outsideAttributes (depth + 1) rest
    else if t.text = "]" then outsideAttributes (depth - 1) rest
    else outsideAttributes depth rest

/-- The ampersand of a parameter taken by reference. -/
def marksReference (t : Token) : Bool :=
  !t.isModifier && t.text == "&"

/-- The question mark of a nullable type. -/
def marksNullable (t : Token) : Bool :=
  t.text == "?"

/-- The dots of a variadic parameter. -/
def marksVariadic (t : Token) : Bool :=
  !t.marksNullable && t.kind == .ellipsis

/-- The variable that names a parameter. -/
def namesParameter (t : Token) : Bool :=
  t.kind == .var && t.text != "&" && t.text != "?"

end Token

namespace Parameter
open Token

/-- The parameter that one group of tokens declares. Its tokens are kept in order, less
attributes, modifiers and the ampersand: nullable mark, type, dots, variable, equals sign and
default. -/
def ofGroup (group : List Token) : Parameter :=
  let bare := outsideAttributes 0 group
  let before := bare.takeWhile fun t => !t.namesParameter
  let named := bare.dropWhile fun t => !t.namesParameter
  let kept := before.filter fun t => !t.isModifier && t.text != "&"
  { name := named.head?.map (·.text)
    type := joinTexts? (kept.filter fun t => !t.marksNullable && !t.marksVariadic)
    isNullable := kept.any (·.marksNullable)
    isVariadic := kept.any (·.marksVariadic)
    isByReference := before.any (·.marksReference)
    default := joinTexts? (named.tail.eraseP fun t => t.text == "=")
    tokens := kept ++ named }

end Parameter

end RenderTrace
