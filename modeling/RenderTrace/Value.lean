import RenderTrace.Decimal.Binary
import RenderTrace.Json
import RenderTrace.Keyed

/-!
# Values of a settings document

What a settings document holds before it is checked: scalars, lists and mappings
nested to any depth. The keys of a mapping may be any scalars and keep their order.
-/

namespace RenderTrace

/-- A value of a settings document. -/
inductive Value where
  | null
  | bool (b : Bool)
  | int (n : Int)
  | float (x : Float)
  | text (s : String)
  | list (items : List Value)
  | mapping (entries : List (Value × Value))

namespace Value

/-- The value under a text key. -/
def lookup? (key : String) : List (Value × Value) → Option Value
  | [] => none
  | (text k, v) :: rest => if k = key then some v else lookup? key rest
  | _ :: rest => lookup? key rest

/-- Null, false, zero and whatever is empty count as absent where a value is optional. -/
def isFalsy : Value → Bool
  | null => true
  | bool b => !b
  | int n => n == 0
  | float x => x == 0.0
  | text s => s.isEmpty
  | list items => items.isEmpty
  | mapping entries => entries.isEmpty

mutual

/-- The value that a JSON value stands for; of members with one name the last counts. -/
def ofJson : Json → Value
  | .null => null
  | .bool b => bool b
  | .integer n => int n
  | .decimal negative digits exponent => float (Decimal.nearest negative digits exponent)
  | .text s => text s
  | .array items => list (ofItems items)
  | .object members => mapping ((Keyed.ofList (ofMembers members)).map fun (k, v) => (text k, v))

/-- The values of items. -/
def ofItems : List Json → List Value
  | [] => []
  | x :: xs => ofJson x :: ofItems xs

/-- The values of members. -/
def ofMembers : List (String × Json) → List (String × Value)
  | [] => []
  | (name, x) :: ms => (name, ofJson x) :: ofMembers ms

end

end Value

end RenderTrace
