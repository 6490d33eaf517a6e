import RenderTrace.Text.Blank
import RenderTrace.Text.Digit

/-!
# Integer numerals

The integer a text spells: a sign and decimal digits of any script, with single
underscores between digits, white space around the whole ignored. The separator
controls, which are blank elsewhere, do not count as white space here. A numeral of
more than `maxDigits` digits is refused.
-/

namespace RenderTrace.Text

/-- The most digits a numeral may have. -/
def maxDigits : Nat := 4300

/-- Place values of a run of digits; an underscore must stand between two digits. -/
def digitValues? : List Char → Option (List Nat)
  | [] => none
  | [c] => (decimalValue? c).map fun d => [d]
  | c :: '_' :: rest => do
    let d ← decimalValue? c
    let ds ← digitValues? rest
    return d :: ds
  | c :: rest => do
    let d ← decimalValue? c
    let ds ← digitValues? rest
    return d :: ds

/-- The number that digits spell in the given base, most significant first. -/
def ofDigits (base : Nat) (digits : List Nat) : Nat :=
  digits.foldl (fun n d => n * base + d) 0

/-- The value of a hexadecimal digit. -/
def hexValue? (c : Char) : Option Nat :=
  if '0' ≤ c ∧ c ≤ '9' then some (c.toNat - 0x30)
  else if 'a' ≤ c ∧ c ≤ 'f' then some (c.toNat - 0x57)
  else if 'A' ≤ c ∧ c ≤ 'F' then some (c.toNat - 0x37)
  else none

/-- The natural number that digits spell. -/
def natural? (cs : List Char) : Option Nat := do
  let ds ← digitValues? cs
  if ds.length ≤ maxDigits then return ofDigits 10 ds else none

/-- White space that may stand around a numeral: blanks but for the separator controls. -/
def isMargin (c : Char) : Bool :=
  isBlank c && !(28 ≤ c.toNat && c.toNat ≤ 31)

/-- The characters without the white space around them. -/
def trimMargins (cs : List Char) : List Char :=
  ((cs.dropWhile isMargin).reverse.dropWhile isMargin).reverse

/-- The integer a text spells. -/
def integer? (s : String) : Option Int :=
  match trimMargins s.toList with
  | '-' :: cs => (natural? cs).map fun n => -(n : Int)
  | '+' :: cs => (natural? cs).map fun n => (n : Int)
  | cs => (natural? cs).map fun n => (n : Int)

end RenderTrace.Text
