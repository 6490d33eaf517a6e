/-!
# JSON values

A JSON value keeps the order of object members. Numbers written with a fraction
or an exponent are kept apart from integers, as the decimal that was written.
-/

namespace RenderTrace

/-- A JSON value; `decimal` is `digits * 10 ^ exponent` with a sign. -/
inductive Json where
  | null
  | bool (b : Bool)
  | integer (n : Int)
  | decimal (negative : Bool) (digits : Nat) (exponent : Int)
  | text (s : String)
  | array (items : List Json)
  | object (members : List (String × Json))
deriving Inhabited

namespace Json

/-- A text, or null. -/
def ofText? : Option String → Json
  | none => null
  | some s => text s

/-- An array of texts. -/
def texts (items : List String) : Json :=
  array (items.map text)

/-- The first member of the given name. -/
def get? (name : String) : Json → Option Json
  | object members => members.lookup name
  | _ => none

end Json

end RenderTrace
