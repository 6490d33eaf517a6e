import RenderTrace.Json.Parse
import RenderTrace.Json.Print

/-!
# Reading printed texts

A printed text is a run of UTF-16 units, each written in one of three ways: by its
own character, by a short escape or by four hexadecimal digits. Reading takes the
units back one character at a time, and the two units of a character beyond
`U+FFFF` are joined again.
-/

namespace RenderTrace.Json

/-! ## Hexadecimal digits -/

theorem hexValue?_hexDigit (n : Nat) : Text.hexValue? (Text.hexDigit n) = some (n % 16) := by
  have each : ∀ d < 16, Text.hexValue? (Nat.digitChar d) = some d := by decide
  exact each (n % 16) (Nat.mod_lt n (by decide))

theorem hex_four (n : Nat) :
    Text.hex 4 n = [Text.hexDigit (n / 4096), Text.hexDigit (n / 256), Text.hexDigit (n / 16),
      Text.hexDigit (n / 1)] := rfl

/-- Four digits spell the unit they were written for. -/
theorem hexUnit?_hexDigit {n : Nat} (small : n < 0x10000) :
    hexUnit? (Text.hexDigit (n / 4096)) (Text.hexDigit (n / 256)) (Text.hexDigit (n / 16))
      (Text.hexDigit (n / 1)) = some n := by
  have value : Text.ofDigits 16 [n / 4096 % 16, n / 256 % 16, n / 16 % 16, n / 1 % 16] = n := by
    simp only [Text.ofDigits, List.foldl_cons, List.foldl_nil]
    omega
  have digits : [Text.hexDigit (n / 4096), Text.hexDigit (n / 256), Text.hexDigit (n / 16),
      Text.hexDigit (n / 1)].mapM Text.hexValue? =
        some [n / 4096 % 16, n / 256 % 16, n / 16 % 16, n / 1 % 16] := by
    simp [List.mapM_cons, hexValue?_hexDigit]
  rw [hexUnit?, digits]
  exact congrArg some value

/-! ## Units -/

/-- The UTF-16 units of a character. -/
def unitsOf (c : Char) : List Nat :=
  if c.toNat < 0x10000 then [c.toNat]
  else [0xD800 + (c.toNat - 0x10000) / 0x400, 0xDC00 + (c.toNat - 0x10000) % 0x400]

/-- Puts units before those that are read. -/
def withUnits (units : List Nat) (read : List Nat × List Char) : List Nat × List Char :=
  (units ++ read.1, read.2)

theorem textUnits_unitEscape {n : Nat} (small : n < 0x10000) (rest : List Char) :
    textUnits (unitEscape n ++ rest) = (textUnits rest).map (withUnits [n]) := by
  have written : unitEscape n ++ rest = '\\' :: 'u' :: Text.hexDigit (n / 4096) ::
      Text.hexDigit (n / 256) :: Text.hexDigit (n / 16) :: Text.hexDigit (n / 1) :: rest := by
    rw [unitEscape, hex_four]
    rfl
  rw [written, textUnits, hexUnit?_hexDigit small]
  cases textUnits rest with
  | none => rfl
  | some read => rfl

theorem textUnits_escaped {c : Char} {unit : Nat} (rest : List Char) (short : c ≠ 'u')
    (escaped : escaped? c = some unit) :
    textUnits ('\\' :: c :: rest) = (textUnits rest).map (withUnits [unit]) := by
  rw [textUnits]
  · rw [escaped]
    cases textUnits rest with
    | none => rfl
    | some read => rfl
  · intro _ _ _ _ _ equal
    exact absurd equal short

theorem textUnits_plain {c : Char} (rest : List Char) (backslash : c ≠ '\\')
    (quote : c ≠ Text.doubleQuote) (visible : 0x20 ≤ c.toNat) :
    textUnits (c :: rest) = (textUnits rest).map (withUnits [c.toNat]) := by
  rw [textUnits]
  · rw [if_neg quote, if_neg (Nat.not_lt.mpr visible)]
    cases textUnits rest with
    | none => rfl
    | some read => rfl
  · intro _ _ _ _ _ equal
    exact absurd equal backslash
  · intro _ _ equal
    exact absurd equal backslash

theorem toNat_lt (c : Char) : c.toNat < 0x110000 := by
  have valid : c.toNat < 0xD800 ∨ 0xDFFF < c.toNat ∧ c.toNat < 0x110000 := c.valid
  omega

/-- No character is a surrogate. -/
theorem not_surrogate (c : Char) : ¬ (0xD800 ≤ c.toNat ∧ c.toNat < 0xE000) := by
  rintro ⟨low, high⟩
  have valid : c.toNat < 0xD800 ∨ 0xDFFF < c.toNat ∧ c.toNat < 0x110000 := c.valid
  omega

theorem unitsOf_small {c : Char} (small : c.toNat < 0x10000) : unitsOf c = [c.toNat] := by
  rw [unitsOf, if_pos small]

theorem lt_of_mem_unitsOf {c : Char} {unit : Nat} (mem : unit ∈ unitsOf c) : unit < 0x10000 := by
  have bound : c.toNat < 0x110000 := toNat_lt c
  rw [unitsOf] at mem
  split at mem
  next small =>
    obtain rfl := List.mem_singleton.mp mem
    exact small
  · rw [List.mem_cons, List.mem_singleton] at mem
    omega

/-- The three ways in which a character is written. -/
theorem escape_cases (c : Char) :
    (∃ short, escape c = ['\\', short] ∧ short ≠ 'u' ∧ escaped? short = some c.toNat ∧
      unitsOf c = [c.toNat]) ∨
    (escape c = [c] ∧ c ≠ '\\' ∧ c ≠ Text.doubleQuote ∧ 0x20 ≤ c.toNat ∧
      unitsOf c = [c.toNat]) ∨
    escape c = (unitsOf c).flatMap unitEscape := by
  rw [escape]
  split
  next own =>
    obtain rfl | rfl := own
    · exact .inl ⟨_, rfl, by decide, rfl, rfl⟩
    · exact .inl ⟨_, rfl, by decide, rfl, rfl⟩
  next own =>
    split
    next newline => exact .inl ⟨'n', rfl, by decide, by rw [newline]; rfl, by rw [newline]; rfl⟩
    · split
      next carriage =>
        exact .inl ⟨'r', rfl, by decide, by rw [carriage]; rfl, by rw [carriage]; rfl⟩
      · split
        next tab => exact .inl ⟨'t', rfl, by decide, by rw [tab]; rfl, by rw [tab]; rfl⟩
        · split
          next backspace =>
            exact .inl ⟨'b', rfl, by decide, by rw [backspace]; rfl, unitsOf_small (by omega)⟩
          · split
            next feed =>
              exact .inl ⟨'f', rfl, by decide, by rw [feed]; rfl, unitsOf_small (by omega)⟩
            · split
              next visible =>
                rw [not_or] at own
                exact .inr (.inl ⟨rfl, own.2, own.1, visible.1, unitsOf_small (by omega)⟩)
              · refine .inr (.inr ?_)
                rw [unitsOf]
                split
                · rw [List.flatMap_singleton]
                · rw [List.flatMap_cons, List.flatMap_singleton]

theorem textUnits_flatMap_unitEscape (units : List Nat) (rest : List Char)
    (small : ∀ unit ∈ units, unit < 0x10000) :
    textUnits (units.flatMap unitEscape ++ rest) = (textUnits rest).map (withUnits units) := by
  induction units with
  | nil =>
      rw [List.flatMap_nil, List.nil_append]
      exact Option.map_id'.symm
  | cons unit units ih =>
      obtain ⟨first, later⟩ := List.forall_mem_cons.mp small
      rw [List.flatMap_cons, List.append_assoc, textUnits_unitEscape first, ih later,
        Option.map_map]
      rfl

/-- A character is read back as its units. -/
theorem textUnits_escape (c : Char) (rest : List Char) :
    textUnits (escape c ++ rest) = (textUnits rest).map (withUnits (unitsOf c)) := by
  obtain ⟨short, written, noUnit, escaped, units⟩ | ⟨written, backslash, quote, visible, units⟩ |
    written := escape_cases c
  · rw [written, units]
    exact textUnits_escaped rest noUnit escaped
  · rw [written, units]
    exact textUnits_plain rest backslash quote visible
  · rw [written]
    exact textUnits_flatMap_unitEscape (unitsOf c) rest fun _ mem => lt_of_mem_unitsOf mem

/-- The units of a character are joined to that character. -/
theorem joinUnits_unitsOf (c : Char) (units : List Nat) :
    joinUnits (unitsOf c ++ units) = (joinUnits units).map (c :: ·) := by
  have valid := not_surrogate c
  by_cases small : c.toNat < 0x10000
  · have high : ¬ (0xD800 ≤ c.toNat ∧ c.toNat < 0xDC00) := fun h => valid ⟨h.1, by omega⟩
    have low : ¬ (0xDC00 ≤ c.toNat ∧ c.toNat < 0xE000) := fun h => valid ⟨by omega, h.2⟩
    rw [unitsOf, if_pos small, List.singleton_append]
    cases units with
    | nil =>
        have one : joinUnits [c.toNat] = if 0xD800 ≤ c.toNat ∧ c.toNat < 0xE000 then none
            else some [Char.ofNat c.toNat] := rfl
        rw [one, if_neg valid, Char.ofNat_toNat]
        rfl
    | cons l rest => rw [joinUnits, if_neg high, if_neg low, Char.ofNat_toNat]
  · have bound : c.toNat < 0x110000 := toNat_lt c
    have high : 0xD800 ≤ 0xD800 + (c.toNat - 0x10000) / 0x400 ∧
        0xD800 + (c.toNat - 0x10000) / 0x400 < 0xDC00 := by omega
    have low : 0xDC00 ≤ 0xDC00 + (c.toNat - 0x10000) % 0x400 ∧
        0xDC00 + (c.toNat - 0x10000) % 0x400 < 0xE000 := by omega
    have whole : 0x10000 + (0xD800 + (c.toNat - 0x10000) / 0x400 - 0xD800) * 0x400 +
        (0xDC00 + (c.toNat - 0x10000) % 0x400 - 0xDC00) = c.toNat := by omega
    have pair : unitsOf c ++ units = (0xD800 + (c.toNat - 0x10000) / 0x400) ::
        (0xDC00 + (c.toNat - 0x10000) % 0x400) :: units := by
      rw [unitsOf, if_neg small]
      rfl
    rw [pair, joinUnits, if_pos high, if_pos low, whole, Char.ofNat_toNat]

theorem joinUnits_flatMap_unitsOf (cs : List Char) : joinUnits (cs.flatMap unitsOf) = some cs := by
  induction cs with
  | nil => rfl
  | cons c cs ih => rw [List.flatMap_cons, joinUnits_unitsOf, ih, Option.map_some]

theorem textUnits_flatMap_escape (cs rest : List Char) :
    textUnits (cs.flatMap escape ++ Text.doubleQuote :: rest) =
      some (cs.flatMap unitsOf, rest) := by
  induction cs with
  | nil =>
      rw [List.flatMap_nil, List.nil_append, textUnits]
      · rw [if_pos rfl]
        rfl
      · intro _ _ _ _ _ equal
        exact absurd equal (by decide)
      · intro _ _ equal
        exact absurd equal (by decide)
  | cons c cs ih =>
      rw [List.flatMap_cons, List.append_assoc, textUnits_escape, ih, Option.map_some]
      rfl

/-- A printed text is read back, up to its closing quote. -/
theorem parseText_flatMap_escape (s : String) (rest : List Char) :
    parseText (s.toList.flatMap escape ++ Text.doubleQuote :: rest) = some (s, rest) := by
  rw [parseText, textUnits_flatMap_escape]
  simp only [Option.bind_eq_bind, Option.bind_some, joinUnits_flatMap_unitsOf, Option.pure_def,
    String.ofList_toList]

end RenderTrace.Json
