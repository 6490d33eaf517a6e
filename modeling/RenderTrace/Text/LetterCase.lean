import RenderTrace.Text.LetterCase.Table

/-!
# Lower case

The full lower case of a text. Each character has one of its own, with two
exceptions: the capital I with a dot gives two characters, and the capital sigma
at the end of a word gives the final form.
-/

namespace RenderTrace.Text

/-- The lower case of one character that does not depend on its neighbours. -/
def lowerChar (c : Char) : Char :=
  if c.toNat < 0x80 then
    if 'A' ≤ c ∧ c ≤ 'Z' then Char.ofNat (c.toNat + 32) else c
  else
    match lowerRuns.find? fun (first, last, step, _) =>
        first ≤ c.toNat && c.toNat ≤ last && (c.toNat - first) % step == 0 with
    | some (_, _, _, shift) => Char.ofNat (c.toNat + shift).toNat
    | none => c

/-- The nearest character that case rules do not look past is a cased letter. -/
def meetsCased (cs : List Char) : Bool :=
  match cs.find? fun c => !Range.anyCovers caseIgnorableRanges c with
  | some c => Range.anyCovers casedRanges c
  | none => false

/-- A sigma is final after a cased letter when no cased letter follows. -/
def isFinalSigma (before after : List Char) : Bool :=
  meetsCased before && !meetsCased after

/-- Lower case of the rest of a text; `before` is what has been read, nearest first. -/
def lowerFrom (before : List Char) : List Char → List Char
  | [] => []
  | c :: rest =>
    let low :=
      if c = 'Σ' then [if isFinalSigma before rest then 'ς' else 'σ']
      else if c = 'İ' then ['i', Char.ofNat 0x307]
      else [lowerChar c]
    low ++ lowerFrom (c :: before) rest

/-- The lower case of a text. -/
def lower (s : String) : String :=
  String.ofList (lowerFrom [] s.toList)

end RenderTrace.Text
