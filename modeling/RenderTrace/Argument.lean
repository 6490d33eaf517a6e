import RenderTrace.Text.Blank
import RenderTrace.Text.Quoted

/-!
# Call arguments as text

The text after the opening parenthesis of a call is cut into arguments at its
commas. Quotes hide commas and brackets, a backslash inside quotes hides the next
character, and the kinds of brackets are not told apart. The text of the call ends
at the first closing bracket that nothing opened.
-/

namespace RenderTrace.Argument

/-- Where a scan stands: how many brackets are open, the quote that is open, and whether a
backslash inside it hides the next character. -/
structure State where
  depth : Nat
  quote : Option Char
  escaped : Bool
deriving DecidableEq, Repr

/-- Nothing is open. -/
def State.start : State := ⟨0, none, false⟩

/-- An opening bracket. -/
def isOpener (c : Char) : Bool :=
  c == '(' || c == '[' || c == '{'

/-- A closing bracket. -/
def isCloser (c : Char) : Bool :=
  c == ')' || c == ']' || c == '}'

/-- What a character is to a scan. -/
inductive Role where
  | ends
  | separates
  | belongs (next : State)
deriving DecidableEq, Repr

/-- The role of a character. -/
def State.role (s : State) (c : Char) : Role :=
  match s.quote with
  | some q =>
    if s.escaped then .belongs { s with escaped := false }
    else if c = '\\' then .belongs { s with escaped := true }
    else if c = q then .belongs { s with quote := none }
    else .belongs s
  | none =>
    if Text.isQuote c then .belongs { s with quote := some c }
    else if isOpener c then .belongs { s with depth := s.depth + 1 }
    else if isCloser c then
      if s.depth = 0 then .ends else .belongs { s with depth := s.depth - 1 }
    else if c = ',' ∧ s.depth = 0 then .separates
    else .belongs s

/-- The first argument and the others, from a state on. -/
def splitFrom (s : State) : List Char → List Char × List (List Char)
  | [] => ([], [])
  | c :: rest =>
    match s.role c with
    | .ends => ([], [])
    | .separates =>
      let (arg, others) := splitFrom s rest
      ([], arg :: others)
    | .belongs next =>
      let (arg, others) := splitFrom next rest
      (c :: arg, others)

/-- The arguments of a call; there is always a first one, which may be empty. -/
def split (cs : List Char) : List (List Char) :=
  let (arg, others) := splitFrom .start cs
  arg :: others

theorem split_ne_nil (cs : List Char) : split cs ≠ [] := by
  simp [split]

/-- The first argument. -/
def first (cs : List Char) : List Char :=
  (splitFrom .start cs).1

/-- Characters that are no part of the identifier an argument names. -/
def isMark (c : Char) : Bool :=
  c == '(' || c == ')' || c == '[' || c == ']' || c == ';' || Text.isQuote c

/-- The identifier an argument names: its brackets, semicolons and quotes left out. -/
def identifier (cs : List Char) : List Char :=
  Text.trimChars (cs.filter fun c => !isMark c)

/-- The argument is one quoted text: a quote at both ends and none of its kind between. -/
def isLiteral (cs : List Char) : Bool :=
  match Text.trimChars cs with
  | [] => false
  | q :: rest => Text.isQuote q && rest.getLast? == some q && !rest.dropLast.contains q

end RenderTrace.Argument
