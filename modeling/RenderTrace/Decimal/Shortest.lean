import RenderTrace.Decimal.Binary

/-!
# The shortest decimal of a number

A finite number stands for every real that rounds to it. Among the decimals of
that interval the one with the fewest digits is taken, and of those the nearest to
the number. All of it is exact arithmetic on naturals.
-/

namespace RenderTrace.Decimal

/-- The interval that rounds to a number, over a common denominator; the ends belong to it or
not. -/
structure Interval where
  low : Nat
  value : Nat
  high : Nat
  denominator : Nat
  withEnds : Bool
deriving DecidableEq, Repr

/-- The interval of `m * 2 ^ e`: half a unit to each side, and a quarter below a power of two. -/
def interval (m : Nat) (e : Int) : Interval :=
  let below := if m = Nat.pow 2 52 ∧ -1074 < e then 1 else 2
  let scale := Nat.pow 2 (e - 2).toNat
  { low := (4 * m - below) * scale
    value := 4 * m * scale
    high := (4 * m + 2) * scale
    denominator := Nat.pow 2 (2 - e).toNat
    withEnds := m % 2 == 0 }

/-- The number of decimal digits; zero has none. -/
def countDigits (n : Nat) : Nat :=
  if n = 0 then 0 else (Nat.toDigits 10 n).length

/-- The exponent of the first digit of `n / d`. -/
def leadingExponent (n d : Nat) : Int :=
  if d ≤ n then (countDigits (n / d) : Int) - 1 else -(countDigits ((d - 1) / n) : Int)

/-- The decimal on the grid of `10 ^ unit` that lies in the interval, the nearer one of two. -/
def onGrid? (i : Interval) (unit : Int) : Option Nat :=
  let up := i.denominator * Nat.pow 10 unit.toNat
  let down := Nat.pow 10 (-unit).toNat
  let q := i.value * down / up
  let inside (c : Nat) : Bool :=
    if i.withEnds then i.low * down ≤ c * up && c * up ≤ i.high * down
    else i.low * down < c * up && c * up < i.high * down
  if inside q then
    if inside (q + 1) then
      let left := i.value * down - q * up
      let right := (q + 1) * up - i.value * down
      if left < right ∨ (left = right ∧ q % 2 = 0) then some q else some (q + 1)
    else some q
  else if inside (q + 1) then some (q + 1)
  else none

/-- Digits and exponent of the shortest decimal of `m * 2 ^ e`. -/
def shortest (m : Nat) (e : Int) : Nat × Int :=
  let i := interval m e
  let lead := leadingExponent i.value i.denominator
  let found := (List.range 17).findSome? fun (k : Nat) =>
    (onGrid? i (lead - (k : Int))).map fun digits => (digits, lead - (k : Int))
  found.getD (i.value / i.denominator, 0)

/-- How a decimal is written out. -/
structure Format where
  /-- The least exponent of the first digit that is written positionally. -/
  positionalFrom : Int
  /-- The exponents from here up are written with a mark. -/
  positionalBelow : Int
  exponentMark : Char
  exponentPlus : List Char
  exponentWidth : Nat
  nan : List Char
  infinity : List Char

/-- Digits without the zeros at their end. -/
def significant (digits : List Char) : List Char :=
  (digits.reverse.dropWhile (· == '0')).reverse

/-- The exponent part. -/
def Format.exponent (f : Format) (e : Int) : List Char :=
  let digits := Nat.toDigits 10 e.natAbs
  f.exponentMark :: ((if e < 0 then ['-'] else f.exponentPlus) ++
    List.replicate (f.exponentWidth - digits.length) '0' ++ digits)

/-- A positive decimal written out, positional notation with at least one place. -/
def Format.positive (f : Format) (digits : Nat) (exponent : Int) : List Char :=
  let all := Nat.toDigits 10 digits
  let point : Int := all.length + exponent
  let ds := significant all
  if f.positionalFrom ≤ point - 1 ∧ point - 1 < f.positionalBelow then
    if point ≤ 0 then '0' :: '.' :: (List.replicate (-point).toNat '0' ++ ds)
    else
      let whole := ds.take point.toNat
      let places := ds.drop point.toNat
      whole ++ List.replicate (point.toNat - whole.length) '0' ++
        '.' :: (if places.isEmpty then ['0'] else places)
  else
    match ds with
    | [] => ['0']
    | [d] => d :: f.exponent (point - 1)
    | d :: more => d :: '.' :: (more ++ f.exponent (point - 1))

/-- A number written out. -/
def Format.write (f : Format) : Binary → String
  | .nan => String.ofList f.nan
  | .infinite negative => String.ofList ((if negative then ['-'] else []) ++ f.infinity)
  | .finite negative m e =>
    let size := if m = 0 then ['0', '.', '0'] else f.positive (shortest m e).1 (shortest m e).2
    String.ofList ((if negative then ['-'] else []) ++ size)

end RenderTrace.Decimal
