import RenderTrace.Argument
import RenderTrace.Value.Show

/-!
# Directives

A directive is a form of text that refers to another view: the marker that opens
the call, its parenthesis included, and the rule that says which argument names
the view.
-/

namespace RenderTrace

/-- Which argument names the view. -/
inductive ArgumentRule where
  | first
  | second
  | firstOfArray
deriving DecidableEq, Repr

/-- A marker and the rule for its arguments. -/
structure Directive where
  marker : String
  rule : ArgumentRule
deriving DecidableEq, Repr

/-- The view an argument names, and whether it was written as one quoted text. -/
structure Target where
  name : String
  isLiteral : Bool
deriving DecidableEq, Repr

namespace ArgumentRule

/-- The name of a rule in settings. -/
def word : ArgumentRule → String
  | first => "first"
  | second => "second"
  | firstOfArray => "first_of_array"

/-- The rule of the given name. -/
def ofWord? (s : String) : Option ArgumentRule :=
  [first, second, firstOfArray].find? fun r => r.word == s

theorem ofWord?_word (r : ArgumentRule) : ofWord? r.word = some r := by
  cases r <;> rfl

/-- The argument a rule chooses from the text after a marker; a missing one is empty. -/
def choose (rule : ArgumentRule) (cs : List Char) : List Char :=
  match rule with
  | first => Argument.first cs
  | second => (Argument.split cs)[1]?.getD []
  | firstOfArray =>
    match Text.trimChars (Argument.first cs) with
    | '[' :: inner => Argument.first inner
    | inner => Argument.first inner

end ArgumentRule

namespace Target

/-- What an argument names. -/
def ofArgument (cs : List Char) : Target :=
  ⟨String.ofList (Argument.identifier cs), Argument.isLiteral cs⟩

end Target

namespace Directive

/-- The view that the text after the marker names. -/
def target (d : Directive) (cs : List Char) : Target :=
  Target.ofArgument (d.rule.choose cs)

/-- Why a value of the settings is no directive. -/
inductive Error where
  /-- A mapping without a marker. -/
  | markerMissing
  /-- A scalar that is no text. -/
  | noMarker (scalar : Value)
  | listed
  | unknownRule (value : Value)
  /-- An integer that is too long to be written. -/
  | longNumeral

/-- The word for the kind of a scalar that is no text. -/
def scalarWord : Value → String
  | .null => "NoneType"
  | .bool _ => "bool"
  | .int _ => "int"
  | _ => "float"

/-- The wording of an error. -/
def Error.message : Error → String
  | markerMissing => "'marker'"
  | noMarker scalar => Text.quoted (scalarWord scalar) ++ " object is not subscriptable"
  | listed => "list indices must be integers or slices, not str"
  | unknownRule value => value.quoted ++ " is not a valid ArgumentRule"
  | longNumeral => Value.longNumeralMessage

/-- The rule a mapping asks for; an absent or falsy one is the first argument. -/
def ruleOf (argument : Option Value) : Except Error ArgumentRule :=
  match argument with
  | none => .ok .first
  | some v =>
    if v.isFalsy then .ok .first
    else match v with
      | .text s =>
        match ArgumentRule.ofWord? s with
        | some r => .ok r
        | none => .error (.unknownRule v)
      | _ => .error (if v.isShowable then .unknownRule v else .longNumeral)

/-- The directive a value describes: a text is a marker, a mapping gives marker and rule. -/
def ofValue : Value → Except Error Directive
  | .text s => .ok ⟨s, .first⟩
  | .mapping entries =>
    match Value.lookup? "marker" entries with
    | none => .error .markerMissing
    | some marker =>
      match marker.bare? with
      | none => .error .longNumeral
      | some s => (ruleOf (Value.lookup? "argument" entries)).map fun rule => ⟨s, rule⟩
  | .list _ => .error .listed
  | scalar => .error (.noMarker scalar)

/-- The calls that render a view from code. -/
def renderCalls : List Directive :=
  [⟨"View::make(", .first⟩, ⟨"view(", .first⟩, ⟨"view->make(", .first⟩]

/-- The inclusions of templates. -/
def inclusions : List Directive :=
  [⟨"@include(", .first⟩, ⟨"@includeIf(", .first⟩, ⟨"@extends(", .first⟩,
    ⟨"Blade::include(", .first⟩, ⟨"@includeWhen(", .second⟩, ⟨"@includeUnless(", .second⟩,
    ⟨"@includeFirst(", .firstOfArray⟩]

end Directive

end RenderTrace
