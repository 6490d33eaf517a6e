import Mathlib.Data.List.Basic
import Mathlib.Data.List.Count
import RenderTrace.Text.Utf8

/-!
# Reading back the bytes of a text

The bytes of a text are those of its characters, one after another, and reading them gives
the characters back. So a cut of the bytes between two characters is a cut of the text, and
the line feeds before it can be counted in either.
-/

namespace RenderTrace.Text.Utf8

theorem toNat_ofNat {n : Nat} (byte : n < 256) : (UInt8.ofNat n).toNat = n :=
  UInt8.toNat_ofNat_of_lt' byte

/-! ## One character -/

/-- The first byte asks for so many more bytes, and the second byte is one that it allows. -/
def Asks (b : UInt8) (more second bits : Nat) : Prop :=
  ∃ l, lead? b = some l ∧ l.more = more ∧ l.bits = bits ∧ l.low ≤ second ∧ second ≤ l.high

section
variable {v : Nat}

theorem asks_two (low : 0x7F < v) (high : v ≤ 0x7FF) :
    Asks (UInt8.ofNat (v / 64 % 32 + 192)) 1 (v % 64 + 128) (v / 64) := by
  rw [Asks, lead?, toNat_ofNat (by omega), if_neg (by omega), if_neg (by omega), if_pos (by omega)]
  refine ⟨_, rfl, rfl, ?_, ?_, ?_⟩ <;> simp only <;> omega

/-- Of three bytes the second is bounded below behind `E0`, and above behind `ED`, where the
surrogates would follow. -/
theorem asks_three (low : 0x7FF < v) (high : v ≤ 0xFFFF) (scalar : v < 0xD800 ∨ 0xDFFF < v) :
    Asks (UInt8.ofNat (v / 4096 % 16 + 224)) 2 (v / 64 % 64 + 128) (v / 4096) := by
  rw [Asks, lead?, toNat_ofNat (by omega), if_neg (by omega), if_neg (by omega), if_neg (by omega)]
  split
  · refine ⟨_, rfl, rfl, ?_, ?_, ?_⟩ <;> simp only <;> omega
  · split
    · refine ⟨_, rfl, rfl, ?_, ?_, ?_⟩ <;> simp only <;> omega
    · rw [if_pos (by omega)]
      refine ⟨_, rfl, rfl, ?_, ?_, ?_⟩ <;> simp only <;> omega

/-- Of four bytes the second is bounded below behind `F0`, and above behind `F4`. -/
theorem asks_four (low : 0xFFFF < v) (high : v < 0x110000) :
    Asks (UInt8.ofNat (v / 262144 % 8 + 240)) 3 (v / 4096 % 64 + 128) (v / 262144) := by
  rw [Asks, lead?, toNat_ofNat (by omega), if_neg (by omega), if_neg (by omega), if_neg (by omega),
    if_neg (by omega), if_neg (by omega), if_neg (by omega)]
  split
  · refine ⟨_, rfl, rfl, ?_, ?_, ?_⟩ <;> simp only <;> omega
  · split
    · refine ⟨_, rfl, rfl, ?_, ?_, ?_⟩ <;> simp only <;> omega
    · rw [if_pos (by omega)]
      refine ⟨_, rfl, rfl, ?_, ?_, ?_⟩ <;> simp only <;> omega

/-- A continuation byte adds its six bits. -/
theorem continuation_cons {low high : Nat} (k bits : Nat) (rest : List UInt8)
    (within : low ≤ v % 64 + 128 ∧ v % 64 + 128 ≤ high) :
    continuation (k + 1) low high bits (UInt8.ofNat (v % 64 + 128) :: rest) =
      continuation k 0x80 0xBF (bits * 64 + v % 64) rest := by
  rw [continuation, toNat_ofNat (by omega), if_pos within, Nat.add_sub_cancel]

theorem isTail (v : Nat) : 0x80 ≤ v % 64 + 128 ∧ v % 64 + 128 ≤ 0xBF := by
  omega

end

/-- The bytes of a character are read as that character, whatever follows. -/
theorem next_utf8EncodeChar (c : Char) (rest : List UInt8) :
    ∃ b more, String.utf8EncodeChar c = b :: more ∧ next b (more ++ rest) = (some c, rest) := by
  have scalar : c.val.toNat < 0xD800 ∨ 0xDFFF < c.val.toNat ∧ c.val.toNat < 0x110000 := c.valid
  have value : Char.ofNat c.val.toNat = c := Char.ofNat_toNat c
  rw [String.utf8EncodeChar]
  generalize c.val.toNat = v at scalar value
  split
  next one =>
    refine ⟨_, _, rfl, ?_⟩
    rw [next, lead?, toNat_ofNat (by omega), if_pos (by omega)]
    simp only [continuation, Option.map_some, value, List.nil_append]
  split
  next high =>
    refine ⟨_, _, rfl, ?_⟩
    obtain ⟨l, asks, more, bits, within⟩ := asks_two (by omega) high
    have whole : v / 64 * 64 + v % 64 = v := by omega
    rw [next, asks]
    simp only [more, bits, List.cons_append, List.nil_append]
    rw [continuation_cons 0 _ _ within, continuation, whole]
    simp only [Option.map_some, value]
  split
  next high =>
    refine ⟨_, _, rfl, ?_⟩
    obtain ⟨l, asks, more, bits, within⟩ := asks_three (by omega) high (by omega)
    have whole : (v / 4096 * 64 + v / 64 % 64) * 64 + v % 64 = v := by omega
    rw [next, asks]
    simp only [more, bits, List.cons_append, List.nil_append]
    rw [continuation_cons 1 _ _ within, continuation_cons 0 _ _ (isTail v), continuation, whole]
    simp only [Option.map_some, value]
  next =>
    refine ⟨_, _, rfl, ?_⟩
    obtain ⟨l, asks, more, bits, within⟩ := asks_four (v := v) (by omega) (by omega)
    have whole : ((v / 262144 * 64 + v / 4096 % 64) * 64 + v / 64 % 64) * 64 + v % 64 = v := by
      omega
    rw [next, asks]
    simp only [more, bits, List.cons_append, List.nil_append]
    rw [continuation_cons 2 _ _ within, continuation_cons 1 _ _ (isTail (v / 64)),
      continuation_cons 0 _ _ (isTail v), continuation, whole]
    simp only [Option.map_some, value]

theorem break_ne_ofNat {n : Nat} (byte : n < 256) (other : n ≠ 10) :
    (10 : UInt8) ≠ UInt8.ofNat n := by
  intro same
  have number : (10 : UInt8).toNat = n := same ▸ toNat_ofNat byte
  exact other number.symm

/-- The byte of the line feed is a part of no other character. -/
theorem break_not_mem_utf8EncodeChar {c : Char} (other : c ≠ '\n') :
    10 ∉ String.utf8EncodeChar c := by
  have different : c.val.toNat ≠ 10 := fun same => other (Char.toNat_inj.mp same)
  rw [String.utf8EncodeChar]
  generalize c.val.toNat = v at different
  have tail (w : Nat) : (10 : UInt8) ≠ UInt8.ofNat (w % 64 + 128) :=
    break_ne_ofNat (by omega) (by omega)
  split
  · simp only [List.mem_singleton]
    exact break_ne_ofNat (by omega) different
  split
  · simp only [List.mem_cons, List.not_mem_nil, or_false, not_or]
    exact ⟨break_ne_ofNat (by omega) (by omega), tail v⟩
  split
  · simp only [List.mem_cons, List.not_mem_nil, or_false, not_or]
    exact ⟨break_ne_ofNat (by omega) (by omega), tail (v / 64), tail v⟩
  · simp only [List.mem_cons, List.not_mem_nil, or_false, not_or]
    exact ⟨break_ne_ofNat (by omega) (by omega), tail (v / 4096), tail (v / 64), tail v⟩

theorem count_break_utf8EncodeChar (c : Char) :
    (String.utf8EncodeChar c).count 10 = [c].count '\n' := by
  by_cases same : c = '\n'
  · subst same
    rfl
  · rw [List.count_eq_zero.mpr (break_not_mem_utf8EncodeChar same), List.count_singleton,
      if_neg (by simpa using same)]

/-! ## Texts -/

theorem toList_loop (bytes : ByteArray) (i : Nat) (read : List UInt8) :
    ByteArray.toList.loop bytes i read = read.reverse ++ bytes.data.toList.drop i := by
  fun_induction ByteArray.toList.loop bytes i read with
  | case1 i read within ih =>
      have place : i < bytes.data.toList.length := by simpa using within
      rw [ih, List.drop_eq_getElem_cons place]
      simp [ByteArray.get!, within]
  | case2 i read outside =>
      have ends : bytes.data.toList.length ≤ i := by simpa using Nat.le_of_not_lt outside
      rw [List.drop_eq_nil_of_le ends, List.append_nil]

/-- The bytes of a text are those of its characters. -/
theorem encode_eq_flatMap (s : String) : encode s = s.toList.flatMap String.utf8EncodeChar := by
  rw [encode, String.toUTF8_eq_toByteArray, ByteArray.toList, toList_loop, List.reverse_nil,
    List.nil_append, List.drop_zero, ← String.utf8Encode_toList, List.utf8Encode,
    List.toList_data_toByteArray]

theorem encode_append (s t : String) : encode (s ++ t) = encode s ++ encode t := by
  simp only [encode_eq_flatMap, String.toList_append, List.flatMap_append]

/-- The bytes of characters are read as these characters. -/
theorem read_flatMap_utf8EncodeChar (cs : List Char) :
    read (cs.flatMap String.utf8EncodeChar) = cs.map some := by
  induction cs with
  | nil => rw [List.flatMap_nil, read, List.map_nil]
  | cons c cs ih =>
      obtain ⟨b, more, bytes, character⟩ :=
        next_utf8EncodeChar c (cs.flatMap String.utf8EncodeChar)
      rw [List.flatMap_cons, bytes, List.cons_append, read, character, ih, List.map_cons]

@[simp]
theorem decodeLenient_encode (s : String) : decodeLenient (encode s) = s := by
  rw [decodeLenient, encode_eq_flatMap, read_flatMap_utf8EncodeChar, List.map_map]
  exact (congrArg String.ofList (List.map_id s.toList)).trans String.ofList_toList

theorem count_break_encode (s : String) : (encode s).count 10 = s.toList.count '\n' := by
  rw [encode_eq_flatMap]
  induction s.toList with
  | nil => rfl
  | cons c cs ih =>
      rw [List.flatMap_cons, List.count_append, ih, count_break_utf8EncodeChar, ← List.count_append,
        List.singleton_append]

end RenderTrace.Text.Utf8
