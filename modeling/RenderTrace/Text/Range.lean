/-!
# Ranges of characters

A property of characters is given by the ranges that have it.
-/

namespace RenderTrace.Text

/-- The characters from `first` to `last`, both included. -/
structure Range where
  first : Nat
  last : Nat
deriving DecidableEq, Repr

namespace Range

/-- The character lies in the range. -/
def covers (r : Range) (c : Char) : Bool :=
  r.first ≤ c.toNat && c.toNat ≤ r.last

/-- Some range of the table holds the character. -/
def anyCovers (table : List Range) (c : Char) : Bool :=
  table.any fun r => r.covers c

end Range

end RenderTrace.Text
