import RenderTrace.Proofs.Text.Line
import RenderTrace.Proofs.Text.Utf8

/-!
# Cuts between characters

A byte offset between two characters of a text cuts its bytes into those of the characters
before it and those of the characters behind it. So the line feeds before it can be counted
in the bytes or in the characters, and the bytes between two cuts are read as the text
between them.
-/

namespace RenderTrace.Text.Utf8

/-- The number of bytes before a character of a text. -/
def byteOffset (text : String) (k : Nat) : Nat :=
  (encode (String.ofList (text.toList.take k))).length

/-- The byte offset stands before a character of the text, or at its end. -/
def IsCut (text : String) (offset : Nat) : Prop :=
  ∃ k ≤ text.toList.length, byteOffset text k = offset

instance (text : String) (offset : Nat) : Decidable (IsCut text offset) :=
  inferInstanceAs (Decidable (∃ k ≤ _, _))

variable (text : String)

theorem take_byteOffset (k : Nat) :
    (encode text).take (byteOffset text k) = encode (String.ofList (text.toList.take k)) := by
  have parts : text = String.ofList (text.toList.take k) ++ String.ofList (text.toList.drop k) := by
    rw [← String.ofList_append, List.take_append_drop, String.ofList_toList]
  calc (encode text).take (byteOffset text k)
      = (encode (String.ofList (text.toList.take k)) ++
          encode (String.ofList (text.toList.drop k))).take (byteOffset text k) := by
        rw [← encode_append, ← parts]
    _ = encode (String.ofList (text.toList.take k)) := List.take_left

/-- The bytes before a character hold as many line feeds as the characters before it. -/
theorem count_break_take_byteOffset (k : Nat) :
    ((encode text).take (byteOffset text k)).count 10 = breaksBefore text.toList k := by
  rw [take_byteOffset, count_break_encode, String.toList_ofList, breaksBefore]

variable {i j : Nat}

theorem encode_take_append_between (ordered : i ≤ j) :
    encode (String.ofList (text.toList.take i)) ++
        encode (String.ofList ((text.toList.take j).drop i)) =
      encode (String.ofList (text.toList.take j)) := by
  rw [← encode_append, ← String.ofList_append, take_append_between text.toList ordered]

theorem byteOffset_mono (ordered : i ≤ j) : byteOffset text i ≤ byteOffset text j := by
  rw [byteOffset, byteOffset, ← encode_take_append_between text ordered, List.length_append]
  exact Nat.le_add_right _ _

theorem lt_of_byteOffset_lt (less : byteOffset text i < byteOffset text j) : i < j :=
  Nat.lt_of_not_le fun le => Nat.not_le_of_lt less (byteOffset_mono text le)

/-- The bytes between two characters are read as the text between them. -/
theorem decodeLenient_between (ordered : i ≤ j) :
    decodeLenient (((encode text).take (byteOffset text j)).drop (byteOffset text i)) =
      String.ofList ((text.toList.take j).drop i) := by
  rw [take_byteOffset, ← encode_take_append_between text ordered, byteOffset, List.drop_left,
    decodeLenient_encode]

end RenderTrace.Text.Utf8
