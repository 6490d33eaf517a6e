import RenderTrace.Text.LetterCase
import RenderTrace.Token

/-!
# The shape of a class

What a class, interface or trait declares, as far as calling it needs: its name
and form, and its methods with their visibility, parameters and return type.
-/

namespace RenderTrace

/-- One declared parameter; a group that declares no variable has no name. -/
structure Parameter where
  name : Option String
  type : Option String
  isNullable : Bool
  isVariadic : Bool
  isByReference : Bool
  default : Option String
  tokens : List Token
deriving DecidableEq, Repr

/-- A declared return type. -/
structure ReturnType where
  isNullable : Bool
  text : String
deriving DecidableEq, Repr

/-- One declared method. -/
structure Method where
  name : String
  line : Int
  visibility : String
  visibilityText : Option String
  isStatic : Bool
  isAbstract : Bool
  returnType : Option ReturnType
  signature : List Token
  parameters : List Parameter
deriving DecidableEq, Repr

/-- The head of a declaration; `offset` is the place of the name in the tokens read. -/
structure ClassHead where
  name : String
  offset : Nat
  line : Int
  form : ClassForm
  isAbstract : Bool
deriving DecidableEq, Repr

/-- A declaration and its methods; tokens without a declaration have neither. -/
structure ClassShape where
  head : Option ClassHead
  methods : List Method
deriving DecidableEq, Repr

namespace ClassShape

/-- Method names are compared without regard to letter case. -/
def isNamed (name : String) (m : Method) : Bool :=
  Text.lower m.name == Text.lower name

/-- The place of the first method of the given name. -/
def indexOf? (shape : ClassShape) (name : String) : Option Nat :=
  shape.methods.findIdx? (isNamed name)

/-- The first method of the given name. -/
def method? (shape : ClassShape) (name : String) : Option Method :=
  shape.methods.find? (isNamed name)

end ClassShape

end RenderTrace
