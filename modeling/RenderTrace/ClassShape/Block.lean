import RenderTrace.Token

/-!
# Braced blocks

Braces are recognised by the text of a token alone, so a token that is a brace
counts whatever its kind.
-/

namespace RenderTrace.Token

/-- The opening brace. -/
def openBrace : String := "\x7b"

/-- The closing brace. -/
def closeBrace : String := "\x7d"

/-- The tokens after the block that is open at the given depth; an unclosed block has none. -/
def afterClose (depth : Nat) : List Token → List Token
  | [] => []
  | t :: rest =>
    if t.text = openBrace then afterClose (depth + 1) rest
    else if t.text = closeBrace then
      if depth = 0 then rest else afterClose (depth - 1) rest
    else afterClose depth rest

/-- The tokens after the block whose opening brace comes first. -/
def afterBlock (tokens : List Token) : List Token :=
  afterClose 0 tokens.tail

theorem length_afterClose_le (depth : Nat) (tokens : List Token) :
    (afterClose depth tokens).length ≤ tokens.length := by
  fun_induction afterClose depth tokens <;> simp only [List.length_cons, List.length_nil] <;> omega

theorem length_afterBlock_lt {tokens : List Token} (h : tokens ≠ []) :
    (afterBlock tokens).length < tokens.length := by
  cases tokens with
  | nil => exact absurd rfl h
  | cons t rest =>
    have := length_afterClose_le 0 rest
    simp only [afterBlock, List.tail_cons, List.length_cons]
    omega

end RenderTrace.Token
