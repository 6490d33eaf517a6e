import RenderTrace.Decimal.Shortest
import RenderTrace.Text.Numeral
import RenderTrace.Text.Quoted
import RenderTrace.Value

/-!
# The text of a value

A value is shown bare or quoted. The two differ for a text alone; inside lists and
mappings every text is quoted. A value that holds an integer of more than
`Text.maxDigits` digits has no text.
-/

namespace RenderTrace.Value

/-- Numbers have at least one place, and an exponent of two digits or more outside
`10 ^ -4` to `10 ^ 16`. -/
def numberFormat : Decimal.Format where
  positionalFrom := -4
  positionalBelow := 16
  exponentMark := 'e'
  exponentPlus := ['+']
  exponentWidth := 2
  nan := ['n', 'a', 'n']
  infinity := ['i', 'n', 'f']

mutual

/-- The value with its texts quoted. -/
def quoted : Value → String
  | null => "None"
  | bool true => "True"
  | bool false => "False"
  | int n => toString n
  | float x => numberFormat.write (.ofFloat x)
  | text s => Text.quoted s
  | list items => "[" ++ quotedItems items ++ "]"
  | mapping entries => "\x7b" ++ quotedEntries entries ++ "\x7d"

/-- Quoted items, separated by commas. -/
def quotedItems : List Value → String
  | [] => ""
  | [v] => quoted v
  | v :: vs => quoted v ++ ", " ++ quotedItems vs

/-- Quoted entries, separated by commas. -/
def quotedEntries : List (Value × Value) → String
  | [] => ""
  | [(k, v)] => quoted k ++ ": " ++ quoted v
  | (k, v) :: rest => quoted k ++ ": " ++ quoted v ++ ", " ++ quotedEntries rest

end

/-- The text of a value; a text is its own. -/
def bare : Value → String
  | text s => s
  | v => quoted v

@[simp]
theorem bare_text (s : String) : bare (text s) = s := rfl

mutual

/-- No integer in the value is too long to be written. -/
def isShowable : Value → Bool
  | int n => (Nat.toDigits 10 n.natAbs).length ≤ Text.maxDigits
  | list items => itemsShowable items
  | mapping entries => entriesShowable entries
  | _ => true

/-- No integer in the items is too long to be written. -/
def itemsShowable : List Value → Bool
  | [] => true
  | v :: vs => isShowable v && itemsShowable vs

/-- No integer in the entries is too long to be written. -/
def entriesShowable : List (Value × Value) → Bool
  | [] => true
  | (k, v) :: rest => isShowable k && isShowable v && entriesShowable rest

end

/-- The text of a value, if it has one. -/
def bare? (v : Value) : Option String :=
  if v.isShowable then some v.bare else none

/-- The wording that refuses an integer which is too long to be written. -/
def longNumeralMessage : String :=
  "Exceeds the limit (4300 digits) for integer string conversion; " ++
    "use sys.set_int_max_str_digits() to increase the limit"

end RenderTrace.Value
