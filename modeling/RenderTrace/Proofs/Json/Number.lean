import Mathlib.Data.List.TakeDrop
import RenderTrace.Json.Parse
import RenderTrace.Json.Print

/-!
# Reading printed numbers

The digits of a printed number are read back up to the first character that is none,
and neither a point nor an exponent is read where none was printed.
-/

namespace RenderTrace.Json

/-! ## Digits -/

theorem isDigit_of_mem_naturalChars {n : Nat} {c : Char} (mem : c ∈ naturalChars n) : c.isDigit :=
  Nat.isDigit_of_mem_toDigits (by decide) (by decide) mem

theorem exists_naturalChars (n : Nat) :
    ∃ c rest, naturalChars n = c :: rest ∧ c.isDigit := by
  obtain ⟨c, rest, digits⟩ := List.exists_cons_of_ne_nil (Nat.toDigits_ne_nil (n := n) (b := 10))
  have written : naturalChars n = c :: rest := digits
  refine ⟨c, rest, written, isDigit_of_mem_naturalChars (n := n) ?_⟩
  rw [written]
  exact List.mem_cons_self

theorem digitsValue_naturalChars (n : Nat) : digitsValue (naturalChars n) = n := by
  have value : Nat.ofDigitChars 10 (naturalChars n) 0 = n := Nat.ofDigitChars_ten_toDigits
  have zero : '0'.toNat = 0x30 := rfl
  rw [Nat.ofDigitChars_eq_foldl, zero] at value
  rw [digitsValue]
  simpa only [Nat.mul_comm] using value

/-- Only zero is printed with a zero in front. -/
theorem eq_zero_of_head?_naturalChars {n : Nat} (head : (naturalChars n).head? = some '0') :
    n = 0 := by
  rw [naturalChars] at head
  induction n using Nat.strongRecOn with
  | ind n ih =>
      rw [Nat.toDigits_eq_if (by decide)] at head
      split at head
      · have zero : Nat.digitChar n = '0' := by simpa using head
        exact Nat.digitChar_eq_zero.mp zero
      next large =>
        obtain ⟨c, rest, digits⟩ :=
          List.exists_cons_of_ne_nil (Nat.toDigits_ne_nil (n := n / 10) (b := 10))
        have less : n / 10 < n := Nat.div_lt_self (by omega) (by decide)
        have tenth : n / 10 = 0 := by
          apply ih (n / 10) less
          rw [digits] at head ⊢
          exact head
        omega

theorem not_padded_naturalChars (n : Nat) :
    ¬ ((naturalChars n).head? = some '0' ∧ naturalChars n ≠ ['0']) := by
  rintro ⟨head, other⟩
  have zero := eq_zero_of_head?_naturalChars head
  subst zero
  exact other rfl

/-- Nothing that would go on with a run of digits comes first. -/
def EndsDigits (rest : List Char) : Prop :=
  ∀ c ∈ rest.head?, c.isDigit = false

/-- Nothing that would go on with a number comes first. -/
def EndsNumber (rest : List Char) : Prop :=
  ∀ c ∈ rest.head?, c.isDigit = false ∧ c ≠ '.' ∧ c ≠ 'e' ∧ c ≠ 'E'

theorem EndsNumber.endsDigits {rest : List Char} (ends : EndsNumber rest) : EndsDigits rest :=
  fun c head => (ends c head).1

theorem endsNumber_nil : EndsNumber [] :=
  fun _ head => absurd head (by simp)

theorem endsNumber_cons {c : Char} (rest : List Char)
    (ends : c.isDigit = false ∧ c ≠ '.' ∧ c ≠ 'e' ∧ c ≠ 'E') : EndsNumber (c :: rest) := by
  intro d head
  obtain rfl : c = d := Option.some.inj head
  exact ends

theorem parseDigits_naturalChars (n : Nat) {rest : List Char} (ends : EndsDigits rest) :
    parseDigits (naturalChars n ++ rest) = some (naturalChars n, rest) := by
  have digits : ∀ c ∈ naturalChars n, c.isDigit := fun c => isDigit_of_mem_naturalChars
  have stop : rest.takeWhile (·.isDigit) = [] ∧ rest.dropWhile (·.isDigit) = rest := by
    cases rest with
    | nil => exact ⟨rfl, rfl⟩
    | cons c rest =>
        have other : c.isDigit = false := ends c rfl
        simp [other]
  have cut : (naturalChars n ++ rest).span (·.isDigit) = (naturalChars n, rest) := by
    rw [List.span_eq_takeWhile_dropWhile, List.takeWhile_append_of_pos digits,
      List.dropWhile_append_of_pos digits, stop.1, stop.2, List.append_nil]
  obtain ⟨c, more, written, _⟩ := exists_naturalChars n
  rw [parseDigits, cut, written]

/-! ## Integers and decimals -/

theorem parseFraction_of_endsNumber {rest : List Char} (ends : ∀ c ∈ rest.head?, c ≠ '.') :
    parseFraction rest = some (none, rest) := by
  rw [parseFraction]
  intro more equal
  exact ends '.' (by rw [equal]; rfl) rfl

theorem parseExponent_of_endsNumber {rest : List Char} (ends : EndsNumber rest) :
    parseExponent rest = some (none, rest) := by
  cases rest with
  | nil => rfl
  | cons c rest =>
      obtain ⟨_, _, lower, upper⟩ := ends c rfl
      unfold parseExponent
      apply if_neg
      rintro (equal | equal)
      · exact lower equal
      · exact upper equal

theorem parseUnsigned_naturalChars (negative : Bool) (n : Nat) {rest : List Char}
    (ends : EndsNumber rest) :
    parseUnsigned negative (naturalChars n ++ rest) =
      some (integer (if negative then -(n : Int) else n), rest) := by
  have point : parseFraction rest = some (none, rest) :=
    parseFraction_of_endsNumber fun c head => (ends c head).2.1
  rw [parseUnsigned, parseDigits_naturalChars n ends.endsDigits]
  simp only [Option.bind_eq_bind, Option.bind_some, if_neg (not_padded_naturalChars n), point,
    parseExponent_of_endsNumber ends, digitsValue_naturalChars]
  rfl

/-- A printed exponent is read back. -/
theorem parseExponent_integerChars (e : Int) {rest : List Char} (ends : EndsDigits rest) :
    parseExponent ('e' :: (integerChars e ++ rest)) = some (some e, rest) := by
  cases e with
  | ofNat n =>
      obtain ⟨c, more, written, digit⟩ := exists_naturalChars n
      have unsigned : ∀ sign after, sign.isDigit = false →
          naturalChars n ++ rest = sign :: after → False := by
        intro sign after other equal
        rw [written] at equal
        obtain rfl : c = sign := (List.cons.inj equal).1
        exact absurd digit (by simp [other])
      rw [integerChars, parseExponent, if_pos (Or.inl rfl), parseDigits_naturalChars n ends,
        Option.map_some]
      · simp only [digitsValue_naturalChars]
        rfl
      · exact fun after => unsigned '-' after rfl
      · exact fun after => unsigned '+' after rfl
  | negSucc n =>
      rw [integerChars, List.cons_append, parseExponent, if_pos (Or.inl rfl),
        parseDigits_naturalChars (n + 1) ends, Option.map_some]
      simp only [digitsValue_naturalChars]
      rfl

theorem parseUnsigned_decimal (negative : Bool) (digits : Nat) (exponent : Int) {rest : List Char}
    (ends : EndsDigits rest) :
    parseUnsigned negative (naturalChars digits ++ 'e' :: (integerChars exponent ++ rest)) =
      some (decimal negative digits exponent, rest) := by
  have stop : EndsDigits ('e' :: (integerChars exponent ++ rest)) := by
    intro c head
    obtain rfl : 'e' = c := Option.some.inj head
    decide
  have point : parseFraction ('e' :: (integerChars exponent ++ rest)) =
      some (none, 'e' :: (integerChars exponent ++ rest)) := rfl
  rw [parseUnsigned, parseDigits_naturalChars digits stop]
  simp only [Option.bind_eq_bind, Option.bind_some, if_neg (not_padded_naturalChars digits), point,
    parseExponent_integerChars exponent ends]
  simp [digitsValue_naturalChars]

/-- A number begins with a digit or its sign. -/
def BeginsNumber (c : Char) : Prop :=
  c.isDigit ∨ c = '-'

theorem parseNumber_naturalChars {n : Nat} (more : List Char) :
    parseNumber (naturalChars n ++ more) = parseUnsigned false (naturalChars n ++ more) := by
  obtain ⟨c, rest, written, digit⟩ := exists_naturalChars n
  rw [parseNumber]
  intro cs equal
  rw [written] at equal
  have minus : c = '-' := (List.cons.inj equal).1
  subst minus
  exact absurd digit (by decide)

/-- A printed integer is read back. -/
theorem parseNumber_integerChars (n : Int) {rest : List Char} (ends : EndsNumber rest) :
    parseNumber (integerChars n ++ rest) = some (integer n, rest) := by
  cases n with
  | ofNat n =>
      rw [integerChars, parseNumber_naturalChars, parseUnsigned_naturalChars false n ends]
      rfl
  | negSucc n =>
      rw [integerChars, List.cons_append, parseNumber, parseUnsigned_naturalChars true (n + 1) ends]
      rfl

/-- A printed decimal is read back. -/
theorem parseNumber_decimal (negative : Bool) (digits : Nat) (exponent : Int) {rest : List Char}
    (ends : EndsNumber rest) :
    parseNumber ((if negative then ['-'] else []) ++ naturalChars digits ++
      'e' :: integerChars exponent ++ rest) = some (decimal negative digits exponent, rest) := by
  have read := parseUnsigned_decimal negative digits exponent ends.endsDigits
  cases negative with
  | true =>
      have written : (if true then ['-'] else []) ++ naturalChars digits ++
          'e' :: integerChars exponent ++ rest =
            '-' :: (naturalChars digits ++ 'e' :: (integerChars exponent ++ rest)) := by
        simp
      rw [written, parseNumber, read]
  | false =>
      have written : (if false then ['-'] else []) ++ naturalChars digits ++
          'e' :: integerChars exponent ++ rest =
            naturalChars digits ++ 'e' :: (integerChars exponent ++ rest) := by
        simp
      rw [written, parseNumber_naturalChars, read]

theorem exists_integerChars (n : Int) : ∃ c rest, integerChars n = c :: rest ∧ BeginsNumber c := by
  cases n with
  | ofNat n =>
      obtain ⟨c, rest, written, digit⟩ := exists_naturalChars n
      exact ⟨c, rest, written, Or.inl digit⟩
  | negSucc n => exact ⟨'-', naturalChars (n + 1), rfl, Or.inr rfl⟩

theorem exists_decimalChars (negative : Bool) (digits : Nat) (more : List Char) :
    ∃ c rest, (if negative then ['-'] else []) ++ naturalChars digits ++ more = c :: rest ∧
      BeginsNumber c := by
  cases negative with
  | true => exact ⟨'-', naturalChars digits ++ more, rfl, Or.inr rfl⟩
  | false =>
      obtain ⟨c, rest, written, digit⟩ := exists_naturalChars digits
      refine ⟨c, rest ++ more, ?_, Or.inl digit⟩
      rw [written]
      rfl

end RenderTrace.Json
