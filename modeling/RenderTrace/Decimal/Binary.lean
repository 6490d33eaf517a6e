/-!
# Binary floating point numbers

A floating point number taken apart: a sign and a natural number times a power of
two, or one of the values that are no number.
-/

namespace RenderTrace.Decimal

/-- The parts of a floating point number; a finite one is `m * 2 ^ e` with a sign. -/
inductive Binary where
  | nan
  | infinite (negative : Bool)
  | finite (negative : Bool) (m : Nat) (e : Int)
deriving DecidableEq, Repr

namespace Binary

/-- The parts of a number in the double format. -/
def ofFloat (x : Float) : Binary :=
  let bits : Nat := x.toBits.toNat
  let negative := bits / Nat.pow 2 63 == 1
  let power : Nat := bits / Nat.pow 2 52 % 2048
  let fraction : Nat := bits % Nat.pow 2 52
  if power = 2047 then
    if fraction = 0 then infinite negative else nan
  else if power = 0 then finite negative fraction (-1074)
  else finite negative (Nat.pow 2 52 + fraction) ((power : Int) - 1075)

/-- The integer part of a finite number, its fraction dropped. -/
def truncate (negative : Bool) (m : Nat) (e : Int) : Int :=
  let size : Nat := if 0 ≤ e then m * Nat.pow 2 e.toNat else m / Nat.pow 2 (-e).toNat
  if negative then -(size : Int) else size

/-- The integer a finite number is equal to, if it is one. -/
def integer? (negative : Bool) (m : Nat) (e : Int) : Option Int :=
  if 0 ≤ e ∨ m % Nat.pow 2 (-e).toNat = 0 then some (truncate negative m e) else none

end Binary

/-- The number nearest to `digits * 10 ^ exponent`. Powers of ten beyond the range of the format
give infinity or zero at once. -/
def nearest (negative : Bool) (digits : Nat) (exponent : Int) : Float :=
  let places : Int := (Nat.toDigits 10 digits).length
  let size : Float :=
    if digits = 0 then 0.0
    else if 400 < places + exponent then 1.0 / 0.0
    else if places + exponent < -400 then 0.0
    else Float.ofScientific digits (decide (exponent < 0)) exponent.natAbs
  if negative then -size else size

end RenderTrace.Decimal
