import RenderTrace.ClassShape.Parameter

/-!
# Reading one method

A method is read from the tokens after its `function` keyword: an optional
ampersand, the name, the parameter list, an optional return type, and a body or a
semicolon. Reading gives the tokens to go on with, so that a broken method costs
no more than itself.
-/

namespace RenderTrace
open Token

namespace ReturnType

/-- A token that may stand in a return type. -/
def isPart (t : Token) : Bool :=
  t.text != openBrace && t.text != ";" && t.text != closeBrace && t.kind != .function

/-- The type that the tokens after the colon spell; a lone question mark spells none. -/
def ofTokens? (tokens : List Token) : Option ReturnType :=
  if tokens.head?.any (·.marksNullable) then
    (joinTexts? tokens.tail).map fun text => ⟨true, text⟩
  else
    (joinTexts? tokens).map fun text => ⟨false, text⟩

/-- The return type, if a colon comes first, and the tokens after it. -/
def read (tokens : List Token) : Option ReturnType × List Token :=
  match tokens with
  | t :: rest =>
    if t.text = ":" then (ofTokens? (rest.takeWhile isPart), rest.dropWhile isPart)
    else (none, t :: rest)
  | [] => (none, [])

theorem length_read_le (tokens : List Token) : (read tokens).2.length ≤ tokens.length := by
  unfold read
  split
  next t rest =>
    split
    · have := (List.dropWhile_suffix isPart (l := rest)).length_le
      simp only [List.length_cons]; omega
    · simp
  · simp

end ReturnType

namespace Method

/-- Whether a semicolon stands in place of the body, and the tokens after either; another token
is left for the caller. -/
def readBody (tokens : List Token) : Bool × List Token :=
  match tokens with
  | [] => (false, [])
  | t :: rest =>
    if t.text = ";" then (true, rest)
    else if t.text = openBrace then (false, afterBlock (t :: rest))
    else (false, t :: rest)

theorem length_readBody_le (tokens : List Token) : (readBody tokens).2.length ≤ tokens.length := by
  unfold readBody
  split
  · simp
  next t rest =>
    split
    · simp
    · split
      · exact Nat.le_of_lt (length_afterBlock_lt (by simp))
      · simp

/-- The visibility modifier that counts is the last one. -/
def visibilityModifier? (modifiers : List Token) : Option Token :=
  modifiers.reverse.find? fun t =>
    match t.kind with
    | .modifier (.visibility _) => true
    | _ => false

/-- The method of the given name whose parameter list is open before `tokens`, and the tokens
after the method. -/
def readNamed (visibility : String) (modifiers : List Token) (name : Token)
    (tokens : List Token) : Method × List Token :=
  let listed := groups 0 tokens
  let typed := ReturnType.read listed.rest
  let body := readBody typed.2
  let found := visibilityModifier? modifiers
  let parameters := (listed.first :: listed.later).map Parameter.ofGroup
  ({ name := name.text
     line := name.line
     visibility := (found.map fun t => Text.lower t.text).getD visibility
     visibilityText := found.map (·.text)
     isStatic := modifiers.any fun t => t.kind == .modifier .static
     isAbstract := body.1 || modifiers.any fun t => t.kind == .modifier .abstract
     returnType := typed.1
     signature := parameters.flatMap (·.tokens)
     parameters := parameters.filter (·.name.isSome) },
    body.2)

/-- Reads the method whose `function` keyword comes just before `tokens`; without a name or a
parameter list there is none. -/
def read (visibility : String) (modifiers tokens : List Token) : Option Method × List Token :=
  let afterMark :=
    match tokens with
    | t :: rest => if t.text = "&" then rest else t :: rest
    | [] => []
  match afterMark with
  | [] => (none, [])
  | name :: rest =>
    if name.kind.isNeverName then (none, tokens)
    else match rest with
      | [] => (none, [])
      | t :: inside =>
        if t.text = "(" then
          let (m, after) := readNamed visibility modifiers name inside
          (some m, after)
        else (none, t :: inside)

theorem length_readNamed_le (visibility : String) (modifiers : List Token) (name : Token)
    (tokens : List Token) :
    (readNamed visibility modifiers name tokens).2.length ≤ tokens.length :=
  Nat.le_trans (length_readBody_le _)
    (Nat.le_trans (ReturnType.length_read_le _) (length_groups_rest_le 0 tokens))

theorem length_read_le (visibility : String) (modifiers tokens : List Token) :
    (read visibility modifiers tokens).2.length ≤ tokens.length := by
  have mark : (match tokens with
      | t :: rest => if t.text = "&" then rest else t :: rest
      | [] => []).length ≤ tokens.length := by
    split
    · split <;> simp
    · simp
  unfold read
  simp only
  split
  · simp
  next name rest h =>
    rw [h] at mark
    split
    · simp
    · split
      · simp
      next t inside =>
        simp only [List.length_cons] at mark
        split
        · have := length_readNamed_le visibility modifiers name inside
          simp only; omega
        · simp only [List.length_cons]; omega

end Method

end RenderTrace
