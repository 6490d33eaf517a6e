import RenderTrace.Text.Numeral
import RenderTrace.Value

/-!
# What plain scalars stand for

A plain scalar is null, a truth value, an integer or a float if it is spelled like
one, and a text otherwise. Numbers may hold underscores; a leading zero changes
nothing, and `0b`, `0o` and `0x` choose another base.
-/

namespace RenderTrace.Yaml

/-- A decimal digit or an underscore. -/
def isDigitOrUnderscore (c : Char) : Bool :=
  c.isDigit || c == '_'

/-- The value of a digit of a base up to sixteen. -/
def digitOf? (base : Nat) (c : Char) : Option Nat :=
  (Text.hexValue? c).filter fun d => decide (d < base)

/-- The number that digits spell in a base, underscores ignored. -/
def numeral? (base : Nat) (cs : List Char) : Option Nat := do
  let ds ← (cs.filter (· != '_')).mapM (digitOf? base)
  if ds.isEmpty then none else some (Text.ofDigits base ds)

/-- The natural number that a scalar without a sign spells. -/
def natural? : List Char → Option Nat
  | '0' :: 'b' :: ds => numeral? 2 ds
  | '0' :: 'o' :: ds => numeral? 8 ds
  | '0' :: 'x' :: ds => numeral? 16 ds
  | ds => numeral? 10 ds

/-- The exponent that ends a scalar; `signed` says that it has to have a sign. -/
def exponent? (signed : Bool) : List Char → Option Int
  | e :: rest =>
    if e = 'e' ∨ e = 'E' then
      let digits (ds : List Char) : Option Nat := if ds.contains '_' then none else numeral? 10 ds
      match rest with
      | '-' :: ds => (digits ds).map fun n => -(n : Int)
      | '+' :: ds => (digits ds).map fun n => (n : Int)
      | ds => if signed then none else (digits ds).map fun n => (n : Int)
    else none
  | [] => none

/-- The float that a scalar without a sign spells, as digits and a power of ten. -/
def decimal? (cs : List Char) : Option (Nat × Int) := do
  let (whole, rest) := cs.span isDigitOrUnderscore
  match rest with
  | '.' :: rest =>
    let (places, rest) := rest.span isDigitOrUnderscore
    let digits ← numeral? 10 (whole ++ places)
    let exponent ← if rest.isEmpty then some 0 else exponent? whole.isEmpty rest
    return (digits, exponent - (places.filter (· != '_')).length)
  | rest => return (← numeral? 10 whole, ← exponent? false rest)

/-- The number that a scalar without a sign spells. -/
def unsigned? (negative : Bool) (cs : List Char) : Option Value :=
  match natural? cs with
  | some n => some (.int (if negative then -(n : Int) else n))
  | none =>
    if cs.head? = some '_' then none
    else (decimal? cs).map fun (digits, exponent) =>
      .float (Decimal.nearest negative digits exponent)

/-- The number that a scalar spells. -/
def number? : List Char → Option Value
  | '-' :: cs => unsigned? true cs
  | '+' :: cs => unsigned? false cs
  | '_' :: _ => none
  | cs => unsigned? false cs

/-- The float of a word. -/
def wordFloat? (s : String) : Option Float :=
  if s ∈ [".nan", ".NaN", ".NAN"] then some (0.0 / 0.0)
  else if s ∈ [".inf", ".Inf", ".INF", "+.inf", "+.Inf", "+.INF"] then some (1.0 / 0.0)
  else if s ∈ ["-.inf", "-.Inf", "-.INF"] then some (-1.0 / 0.0)
  else none

/-- What a plain scalar stands for. -/
def plainValue (s : String) : Value :=
  if s ∈ ["", "~", "null", "Null", "NULL"] then .null
  else if s ∈ ["true", "True", "TRUE"] then .bool true
  else if s ∈ ["false", "False", "FALSE"] then .bool false
  else match wordFloat? s with
    | some x => .float x
    | none => (number? s.toList).getD (.text s)

end RenderTrace.Yaml
