import RenderTrace.Readers.Php.Lexeme

/-!
# The type `string`

Where a type is declared, of a parameter, a property, a constant or a result, the
word `string` has the node type of strings; elsewhere it is a name. One pass over
the lexemes follows the brackets and knows for each of them whether a type may come
next.
-/

namespace RenderTrace.Php

/-- What a bracket holds, as far as types are declared in it. -/
inductive Bracket where
  | plain
  | members
  | parameters
  | hooks
  | typeGroup
  /-- The variables that a closure takes from outside. -/
  | captures
deriving DecidableEq, Repr

/-- What the next bracket will hold. -/
inductive Announced where
  | nothing
  | members
  | parameters
  | captures
deriving DecidableEq, Repr

/-- What is known inside one bracket. -/
structure Scope where
  bracket : Bracket
  announced : Announced
  /-- A type may come next. -/
  wantsType : Bool
  /-- A parameter list has just been closed. -/
  closedList : Bool
  /-- A property or parameter has been named, so a brace would open its hooks. -/
  namedProperty : Bool

namespace Scope

/-- The scope just inside a bracket. -/
def opened (bracket : Bracket) : Scope :=
  ⟨bracket, .nothing, bracket == .parameters || bracket == .typeGroup, false, false⟩

/-- The scope after a lexeme that ends a declaration. -/
def ended (s : Scope) : Scope :=
  { s with announced := .nothing, wantsType := false, closedList := false, namedProperty := false }

/-- What a parenthesis opens. -/
def parenthesis (s : Scope) : Bracket :=
  if s.announced = .parameters then .parameters
  else if s.announced = .captures then .captures
  else if s.wantsType then .typeGroup
  else .plain

/-- What a brace opens. -/
def brace (s : Scope) : Bracket :=
  if s.announced = .members then .members
  else if s.namedProperty && (s.bracket == .members || s.bracket == .parameters) then .hooks
  else .plain

/-- The scope once a bracket of the given kind has been closed in it. -/
def afterBracket (s : Scope) (closed : Bracket) : Scope :=
  match closed with
  | .parameters | .captures => { s with announced := .nothing, closedList := true }
  | _ => s

end Scope

/-- Words that may stand before the type of a member. -/
def memberWords : List String :=
  ["public", "protected", "private", "static", "readonly", "final", "abstract", "var", "const"]

/-- After these marks a word is the name of a member, whatever it looks like. -/
def accessMarks : List String :=
  ["->", "?->", "::"]

/-- A word after this lexeme is the name of a member or a function. -/
def namesMember (previous : Option Lexeme) : Bool :=
  previous.any fun l => accessMarks.any (l.isMark ·) || l.isWord "function"

/-- A word after this lexeme has no meaning as a keyword. -/
def forcesName (previous : Option Lexeme) : Bool :=
  namesMember previous || previous.any (·.isWord "const")

/-- The scope after a word. -/
def Scope.afterWord (s : Scope) (previous next : Option Lexeme) (l : Lexeme) : Scope :=
  if forcesName previous then s
  else if l.isAnyWord ["function", "fn"] then
    { s.ended with announced := .parameters }
  else if l.isAnyWord ["class", "interface", "trait"] ||
      (l.isWord "enum" && next.any fun n =>
        n.type == "name" && !n.isAnyWord ["extends", "implements"]) then
    { s with announced := .members }
  else if s.closedList && l.isWord "use" then { s with announced := .captures }
  else if s.bracket == .hooks && l.isWord "set" then { s with announced := .parameters }
  else if s.bracket == .members && l.isAnyWord memberWords then { s with wantsType := true }
  else s

/-- The scope after a mark that is no bracket. -/
def Scope.afterMark (s : Scope) (l : Lexeme) : Scope :=
  if l.text = ";" then s.ended
  else if l.text = ":" then { s with wantsType := s.wantsType || s.closedList, closedList := false }
  else if l.text = "," then
    { s with wantsType := s.bracket == .parameters, namedProperty := false }
  else if l.text = "=" ∨ l.text = "=>" ∨ l.text = "..." then { s with wantsType := false }
  else s

/-- The scopes after a lexeme, innermost first. -/
def step (scopes : List Scope) (previous next : Option Lexeme) (l : Lexeme) : List Scope :=
  match scopes with
  | [] => []
  | s :: outer =>
    if l.type = "variable_name" then
      { s with wantsType := false, namedProperty := true } :: outer
    else if l.type = "name" then s.afterWord previous next l :: outer
    else if l.isMark "(" then Scope.opened s.parenthesis :: s :: outer
    else if l.isMark "[" || l.isMark "#[" then Scope.opened .plain :: s :: outer
    else if l.isMark "\x7b" then Scope.opened s.brace :: s.ended :: outer
    else if l.isMark ")" || l.isMark "]" || l.isMark "\x7d" then
      match outer with
      | [] => [s]
      | o :: rest => o.afterBracket s.bracket :: rest
    else if l.type = markType then s.afterMark l :: outer
    else s :: outer

/-- The word stands for the type in the scope it is met in; before an equals sign it is the name of
a constant. -/
def isTypeWord (scopes : List Scope) (previous next : Option Lexeme) (l : Lexeme) : Bool :=
  l.type == "name" && l.text == "string" && !namesMember previous &&
    scopes.head?.any (·.wantsType) && !next.any (·.isMark "=")

/-- Gives the type word its node type; `previous` is the last lexeme that is no comment. -/
def markTypes (scopes : List Scope) (previous : Option Lexeme) : List Lexeme → List Lexeme
  | [] => []
  | l :: rest =>
    if l.isComment then l :: markTypes scopes previous rest
    else
      let next := rest.find? fun n => !n.isComment
      let marked := if isTypeWord scopes previous next l then { l with type := "string" } else l
      marked :: markTypes (step scopes previous next l) (some l) rest

/-- The lexemes of a source with their final node types. -/
def typedLexemes (source : String) : List Lexeme :=
  markTypes [Scope.opened .plain] none (lexemes source)

end RenderTrace.Php
