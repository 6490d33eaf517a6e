/-!
# Reading UTF-8

A character is read from the longest prefix that can begin one. When the prefix
is no whole character it is ill-formed: strict reading fails, and lenient reading
gives one replacement character for it.
-/

namespace RenderTrace.Text.Utf8

/-- The character shown in place of ill-formed bytes. -/
def replacement : Char := Char.ofNat 0xFFFD

/-- What a first byte asks for: how many more bytes, the range of the next one, and its own bits. -/
structure Lead where
  more : Nat
  low : Nat
  high : Nat
  bits : Nat

/-- The demand of a first byte; continuation bytes and bytes in no character have none. -/
def lead? (b : UInt8) : Option Lead :=
  let n := b.toNat
  if n < 0x80 then some ⟨0, 0x80, 0xBF, n⟩
  else if n < 0xC2 then none
  else if n < 0xE0 then some ⟨1, 0x80, 0xBF, n - 0xC0⟩
  else if n = 0xE0 then some ⟨2, 0xA0, 0xBF, 0⟩
  else if n = 0xED then some ⟨2, 0x80, 0x9F, 0xD⟩
  else if n < 0xF0 then some ⟨2, 0x80, 0xBF, n - 0xE0⟩
  else if n = 0xF0 then some ⟨3, 0x90, 0xBF, 0⟩
  else if n < 0xF4 then some ⟨3, 0x80, 0xBF, n - 0xF0⟩
  else if n = 0xF4 then some ⟨3, 0x80, 0x8F, 4⟩
  else none

/-- Reads `more` continuation bytes, the first of them between `low` and `high`. -/
def continuation (more low high bits : Nat) (bytes : List UInt8) : Option Nat × List UInt8 :=
  match more, bytes with
  | 0, rest => (some bits, rest)
  | _ + 1, [] => (none, [])
  | k + 1, b :: rest =>
    if low ≤ b.toNat ∧ b.toNat ≤ high then
      continuation k 0x80 0xBF (bits * 64 + (b.toNat - 0x80)) rest
    else (none, b :: rest)

theorem length_continuation_le (more low high bits : Nat) (bytes : List UInt8) :
    (continuation more low high bits bytes).2.length ≤ bytes.length := by
  fun_induction continuation more low high bits bytes with
  | case1 => simp
  | case2 => simp
  | case3 => simp only [List.length_cons]; omega
  | case4 => simp

/-- The next character, `none` for an ill-formed prefix, and the bytes after it. -/
def next (b : UInt8) (rest : List UInt8) : Option Char × List UInt8 :=
  match lead? b with
  | none => (none, rest)
  | some l =>
    let (value, after) := continuation l.more l.low l.high l.bits rest
    (value.map Char.ofNat, after)

theorem length_next_le (b : UInt8) (rest : List UInt8) : (next b rest).2.length ≤ rest.length := by
  unfold next
  split
  · simp
  · exact length_continuation_le _ _ _ _ _

/-- The characters of the bytes, one after another; `none` stands for an ill-formed prefix. -/
def read : List UInt8 → List (Option Char)
  | [] => []
  | b :: rest => (next b rest).1 :: read (next b rest).2
termination_by bytes => bytes.length
decreasing_by
  have := length_next_le b rest
  simp only [List.length_cons]; omega

/-- The text of the bytes, ill-formed prefixes replaced. -/
def decodeLenient (bytes : List UInt8) : String :=
  String.ofList ((read bytes).map fun c => c.getD replacement)

/-- The text of the bytes, if they are well-formed. -/
def decode? (bytes : List UInt8) : Option String :=
  ((read bytes).mapM id).map String.ofList

/-- The bytes of a text. -/
def encode (s : String) : List UInt8 :=
  s.toUTF8.toList

end RenderTrace.Text.Utf8
