/-!
# Tokens of PHP source

A token has a kind, its text and the line it begins on. The keywords that shape a
declaration have kinds of their own; every other word is a name.
-/

namespace RenderTrace

/-- The three forms of declaration that hold methods. -/
inductive ClassForm where
  | classForm
  | interfaceForm
  | traitForm
deriving DecidableEq, Repr

/-- Who may use a member. -/
inductive Visibility where
  | publicAccess
  | protectedAccess
  | privateAccess
deriving DecidableEq, Repr

/-- The words that may stand before a member. -/
inductive Modifier where
  | visibility (v : Visibility)
  | static
  | abstract
  | final
  | readonly
deriving DecidableEq, Repr

namespace Token

/-- Lexical category, as far as the shape of declarations depends on it. -/
inductive Kind where
  | form (f : ClassForm)
  | function
  | modifier (m : Modifier)
  | new
  | var
  | name
  | string
  | number
  | ellipsis
  | doubleColon
  | comment
  | whitespace
  | punct
  | other
deriving DecidableEq, Repr

end Token

/-- One lexical token. -/
structure Token where
  kind : Token.Kind
  text : String
  line : Int
deriving DecidableEq, Repr

/-- The word that introduces a declaration. -/
def ClassForm.word : ClassForm → String
  | .classForm => "class"
  | .interfaceForm => "interface"
  | .traitForm => "trait"

/-- The word of a visibility. -/
def Visibility.word : Visibility → String
  | .publicAccess => "public"
  | .protectedAccess => "protected"
  | .privateAccess => "private"

/-- The word of a modifier. -/
def Modifier.word : Modifier → String
  | .visibility v => v.word
  | .static => "static"
  | .abstract => "abstract"
  | .final => "final"
  | .readonly => "readonly"

namespace Token.Kind

/-- The label reports use for a kind; a keyword is its own label. -/
def label : Kind → String
  | form f => f.word
  | function => "function"
  | modifier m => m.word
  | new => "new"
  | var => "variable"
  | name => "name"
  | string => "string"
  | number => "number"
  | ellipsis => "ellipsis"
  | doubleColon => "double_colon"
  | comment => "comment"
  | whitespace => "whitespace"
  | punct => "punct"
  | other => "other"

/-- Every kind. -/
def all : List Kind :=
  [form .classForm, form .interfaceForm, form .traitForm, function,
    modifier .abstract, modifier .final, modifier .static,
    modifier (.visibility .publicAccess), modifier (.visibility .protectedAccess),
    modifier (.visibility .privateAccess), modifier .readonly,
    new, var, name, string, number, ellipsis, doubleColon, comment, whitespace, punct, other]

theorem mem_all (k : Kind) : k ∈ all := by
  rcases k with ⟨⟨⟩⟩ | _ | ⟨⟨⟨⟩⟩ | _ | _ | _ | _⟩ | _ | _ | _ | _ | _ | _ | _ | _ | _ | _ | _ <;> decide

/-- The kind with the given label. -/
def ofLabel? (s : String) : Option Kind :=
  all.find? fun k => k.label == s

/-- The kind is that of a modifier. -/
def isModifier : Kind → Bool
  | modifier _ => true
  | _ => false

/-- Comments and white space stand between tokens without a meaning of their own. -/
def isTrivia : Kind → Bool
  | comment | whitespace => true
  | _ => false

/-- A token of such a kind is never the name of a method. -/
def isNeverName : Kind → Bool
  | punct | string | var | number | other => true
  | _ => false

end Token.Kind

namespace Token

/-- The token is a comment or white space. -/
def isTrivia (t : Token) : Bool := t.kind.isTrivia

/-- The token is a modifier. -/
def isModifier (t : Token) : Bool := t.kind.isModifier

end Token

end RenderTrace
