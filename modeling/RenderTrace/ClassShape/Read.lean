import RenderTrace.ClassShape.Method

/-!
# Reading a class

The first class, interface or trait declared by a list of tokens. Comments and
white space are set aside first. Reading never fails: tokens without a
declaration give an empty shape, and a list that ends early gives what it holds.
-/

namespace RenderTrace.ClassShape
open Token

/-- A token with its place in the caller's list. -/
structure Placed where
  token : Token
  place : Nat

/-- The tokens that carry meaning, with their places. -/
def significant (tokens : List Token) : List Placed :=
  (tokens.zipIdx.filter fun p => !p.1.isTrivia).map fun p => ⟨p.1, p.2⟩

/-- The modifiers at the end of what has been read, in source order; `seen` has the latest token
first. -/
def modifiersBefore (seen : List Token) : List Token :=
  (seen.takeWhile (·.isModifier)).reverse

/-- After these a form keyword names a class or makes one without a name. -/
def blocksDeclaration (t : Token) : Bool :=
  t.kind == .doubleColon || t.kind == .new

/-- The first declaration, and the tokens after its name. -/
def findHead (seen : List Token) : List Placed → Option (ClassHead × List Token)
  | p :: q :: rest =>
    match p.token.kind with
    | .form f =>
      if !seen.head?.any blocksDeclaration && q.token.kind == .name then
        some
          ({ name := q.token.text
             offset := q.place
             line := q.token.line
             form := f
             isAbstract := (modifiersBefore seen).any fun t => t.kind == .modifier .abstract },
            rest.map (·.token))
      else findHead (p.token :: seen) (q :: rest)
    | _ => findHead (p.token :: seen) (q :: rest)
  | _ => none

/-- The tokens between `tokens` and its end part `after`, latest first. -/
def passed (tokens after : List Token) : List Token :=
  (tokens.take (tokens.length - after.length)).reverse

/-- The methods of a body; `seen` is what has been read of it, latest first. -/
def methodsFrom (visibility : String) (seen tokens : List Token) : List Method :=
  match tokens with
  | [] => []
  | t :: rest =>
    if t.text = closeBrace then []
    else if t.text = openBrace then
      methodsFrom visibility (passed (t :: rest) (afterBlock (t :: rest)) ++ seen)
        (afterBlock (t :: rest))
    else if t.kind = .function then
      let found := Method.read visibility (modifiersBefore seen) rest
      found.1.toList ++ methodsFrom visibility (passed (t :: rest) found.2 ++ seen) found.2
    else methodsFrom visibility (t :: seen) rest
termination_by tokens.length
decreasing_by
  · exact length_afterBlock_lt (by simp)
  · have := Method.length_read_le visibility (modifiersBefore seen) rest
    simp only [List.length_cons]; omega
  · simp

/-- The tokens after the first opening brace. -/
def afterOpenBrace (tokens : List Token) : List Token :=
  (tokens.dropWhile fun t => t.text != openBrace).tail

/-- Reads the first declaration; a method without a visibility of its own gets the given one. -/
def read (visibility : String) (tokens : List Token) : ClassShape :=
  match findHead [] (significant tokens) with
  | none => ⟨none, []⟩
  | some (head, rest) => ⟨some head, methodsFrom visibility [] (afterOpenBrace rest)⟩

end RenderTrace.ClassShape
