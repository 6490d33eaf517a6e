import RenderTrace.Proofs.Json.Number
import RenderTrace.Proofs.Json.Text

/-!
# Reading is the inverse of printing

A printed value is read back, with the order of its items and members, whatever
follows it. Where a value stands decides how far its lines are indented and nothing
else, since blanks before a value are skipped.

## Implementation notes

The reader counts down for every value, item and member it opens, from twice the
number of characters. Every production that is opened prints a character of its own,
so twice the number of characters that are left is always enough.
-/

namespace RenderTrace.Json

/-! ## Blanks -/

theorem skipBlanks_cons {c : Char} (rest : List Char) (plain : isBlank c = false) :
    skipBlanks (c :: rest) = c :: rest := by
  rw [skipBlanks, List.dropWhile_cons, plain, if_neg Bool.false_ne_true]

theorem skipBlanks_skipBlanks (cs : List Char) : skipBlanks (skipBlanks cs) = skipBlanks cs := by
  induction cs with
  | nil => rfl
  | cons c rest ih =>
      cases blank : isBlank c with
      | false => rw [skipBlanks_cons rest blank, skipBlanks_cons rest blank]
      | true =>
          have skip : skipBlanks (c :: rest) = skipBlanks rest := by
            rw [skipBlanks, List.dropWhile_cons, blank, if_pos rfl, skipBlanks]
          rw [skip, ih]

/-- The start of a line is blank. -/
theorem skipBlanks_lineStart (depth : Nat) (rest : List Char) :
    skipBlanks (lineStart depth ++ rest) = skipBlanks rest := by
  have blank : ∀ c ∈ lineStart depth, isBlank c := by
    intro c mem
    rcases List.mem_cons.mp mem with rfl | inner
    · rfl
    · rw [(List.mem_replicate.mp inner).2]
      rfl
  rw [skipBlanks, List.dropWhile_append_of_pos blank, skipBlanks]

theorem parseValue_skipBlanks (fuel : Nat) (cs : List Char) :
    parseValue fuel (skipBlanks cs) = parseValue fuel cs := by
  cases fuel with
  | zero => rfl
  | succ fuel => rw [parseValue.eq_def, parseValue.eq_def]; simp only [skipBlanks_skipBlanks]

theorem parseItems_skipBlanks (fuel : Nat) (cs : List Char) :
    parseItems fuel (skipBlanks cs) = parseItems fuel cs := by
  cases fuel with
  | zero => rfl
  | succ fuel => rw [parseItems, parseItems, parseValue_skipBlanks]

theorem parseMembers_skipBlanks (fuel : Nat) (cs : List Char) :
    parseMembers fuel (skipBlanks cs) = parseMembers fuel cs := by
  cases fuel with
  | zero => rfl
  | succ fuel => rw [parseMembers.eq_def, parseMembers.eq_def]; simp only [skipBlanks_skipBlanks]

theorem parseValue_lineStart (fuel depth : Nat) (cs : List Char) :
    parseValue fuel (lineStart depth ++ cs) = parseValue fuel cs := by
  rw [← parseValue_skipBlanks, skipBlanks_lineStart, parseValue_skipBlanks]

/-! ## How a value begins -/

theorem BeginsNumber.ne {c d : Char} (begins : BeginsNumber c)
    (other : d.isDigit = false ∧ d ≠ '-') : c ≠ d := by
  rintro rfl
  rcases begins with digit | minus
  · exact absurd digit (by simp [other.1])
  · exact other.2 minus

/-- A value begins with no blank, and not like the end of a list or an object. -/
theorem exists_chars (depth : Nat) (v : Json) :
    ∃ c rest, chars depth v = c :: rest ∧ isBlank c = false ∧ c ≠ ']' ∧ c ≠ '}' := by
  have number : ∀ c, BeginsNumber c → isBlank c = false ∧ c ≠ ']' ∧ c ≠ '}' := by
    intro c begins
    have blank : isBlank c = false := by
      simp [isBlank, begins.ne (d := ' ') (by decide), begins.ne (d := '\t') (by decide),
        begins.ne (d := '\n') (by decide), begins.ne (d := '\r') (by decide)]
    exact ⟨blank, begins.ne (by decide), begins.ne (by decide)⟩
  cases v with
  | null => exact ⟨'n', _, rfl, by decide⟩
  | bool b =>
      cases b with
      | true => exact ⟨'t', _, rfl, by decide⟩
      | false => exact ⟨'f', _, rfl, by decide⟩
  | integer n =>
      obtain ⟨c, rest, written, begins⟩ := exists_integerChars n
      exact ⟨c, rest, written, number c begins⟩
  | decimal negative digits exponent =>
      obtain ⟨c, rest, written, begins⟩ :=
        exists_decimalChars negative digits ('e' :: integerChars exponent)
      exact ⟨c, rest, written, number c begins⟩
  | text s => exact ⟨Text.doubleQuote, _, rfl, by decide⟩
  | array items =>
      cases items with
      | nil => exact ⟨'[', _, rfl, by decide⟩
      | cons x xs => exact ⟨'[', _, rfl, by decide⟩
  | object members =>
      cases members with
      | nil => exact ⟨'{', _, rfl, by decide⟩
      | cons m ms => exact ⟨'{', _, rfl, by decide⟩

/-! ## Values -/

theorem parseValue_number {c : Char} {rest : List Char} (fuel : Nat) (begins : BeginsNumber c) :
    parseValue (fuel + 1) (c :: rest) = parseNumber (c :: rest) := by
  have blank : isBlank c = false := by
    simp [isBlank, begins.ne (d := ' ') (by decide), begins.ne (d := '\t') (by decide),
      begins.ne (d := '\n') (by decide), begins.ne (d := '\r') (by decide)]
  have square : c ≠ '[' := begins.ne (by decide)
  have brace : c ≠ '{' := begins.ne (by decide)
  rw [parseValue, skipBlanks_cons rest blank]
  split
  next equal => exact absurd (List.cons.inj equal).1 square
  next equal => exact absurd (List.cons.inj equal).1 brace
  next equal =>
    obtain ⟨rfl, rfl⟩ := List.cons.inj equal
    rw [if_neg (begins.ne (by decide)), if_neg (begins.ne (by decide)),
      if_neg (begins.ne (by decide)), if_neg (begins.ne (by decide))]
  next equal => exact absurd equal (List.cons_ne_nil _ _)

theorem parseValue_text (fuel : Nat) (s : String) (rest : List Char) :
    parseValue (fuel + 1) (textChars s ++ rest) = some (text s, rest) := by
  have written : textChars s ++ rest =
      Text.doubleQuote :: (s.toList.flatMap escape ++ Text.doubleQuote :: rest) := by
    simp [textChars]
  have read := parseText_flatMap_escape s rest
  rw [Text.doubleQuote] at written read
  rw [written, parseValue, skipBlanks_cons _ (by decide)]
  simp [Text.doubleQuote, read]

theorem endsNumber_lineStart (depth : Nat) (rest : List Char) :
    EndsNumber (lineStart depth ++ rest) :=
  endsNumber_cons _ (by decide)

theorem length_lineStart (depth : Nat) : (lineStart depth).length = 2 * depth + 1 := by
  simp [lineStart]

theorem exists_itemChars (depth : Nat) (x : Json) (xs : List Json) (after : List Char) :
    ∃ c rest, skipBlanks (itemChars depth (x :: xs) ++ after) = c :: rest ∧ c ≠ ']' := by
  obtain ⟨c, rest, written, plain, close, _⟩ := exists_chars depth x
  cases xs with
  | nil =>
      refine ⟨c, rest ++ after, ?_, close⟩
      rw [itemChars, List.append_assoc, skipBlanks_lineStart, written, List.cons_append,
        skipBlanks_cons _ plain]
  | cons y ys =>
      refine ⟨c, rest ++ ',' :: itemChars depth (y :: ys) ++ after, ?_, close⟩
      rw [itemChars, List.append_assoc, List.append_assoc, skipBlanks_lineStart, written,
        List.cons_append, skipBlanks_cons _ plain, List.append_assoc]
      simp

theorem exists_memberChars (depth : Nat) (m : String × Json) (ms : List (String × Json))
    (after : List Char) :
    ∃ rest, skipBlanks (memberChars depth (m :: ms) ++ after) = Text.doubleQuote :: rest := by
  obtain ⟨name, x⟩ := m
  obtain ⟨rest, written⟩ : ∃ rest, memberChars depth ((name, x) :: ms) ++ after =
      lineStart depth ++ Text.doubleQuote :: rest := by
    cases ms with
    | nil => exact ⟨name.toList.flatMap escape ++ Text.doubleQuote :: ':' :: ' ' ::
        (chars depth x ++ after), by simp [memberChars, textChars]⟩
    | cons n ns => exact ⟨name.toList.flatMap escape ++ Text.doubleQuote :: ':' :: ' ' ::
        (chars depth x ++ ',' :: (memberChars depth (n :: ns) ++ after)),
          by simp [memberChars, textChars]⟩
  refine ⟨rest, ?_⟩
  rw [written, skipBlanks_lineStart, skipBlanks_cons _ (by decide)]

/-- A list with items is read by its items. -/
theorem parseValue_array (fuel : Nat) {cs : List Char}
    (nonempty : ∃ c rest, skipBlanks cs = c :: rest ∧ c ≠ ']') :
    parseValue (fuel + 1) ('[' :: cs) =
      (parseItems fuel cs).map fun read => (array read.1, read.2) := by
  obtain ⟨c, rest, begins, other⟩ := nonempty
  rw [← parseItems_skipBlanks, parseValue, skipBlanks_cons _ (by decide)]
  simp only [begins]
  split
  next equal => exact absurd (List.cons.inj equal).1 other
  · rfl

/-- An object with members is read by its members. -/
theorem parseValue_object (fuel : Nat) {cs : List Char}
    (nonempty : ∃ rest, skipBlanks cs = Text.doubleQuote :: rest) :
    parseValue (fuel + 1) ('{' :: cs) =
      (parseMembers fuel cs).map fun read => (object read.1, read.2) := by
  obtain ⟨rest, begins⟩ := nonempty
  rw [← parseMembers_skipBlanks, parseValue, skipBlanks_cons _ (by decide)]
  simp only [begins]
  rfl

/-- After an item and a comma come more items. -/
theorem parseItems_comma {fuel : Nat} (depth : Nat) {cs rest more : List Char} {x : Json}
    (value : parseValue fuel cs = some (x, rest)) (comma : skipBlanks rest = ',' :: more) :
    parseItems (fuel + 1) (lineStart depth ++ cs) =
      (parseItems fuel more).map fun read => (x :: read.1, read.2) := by
  rw [parseItems, parseValue_lineStart, value]
  simp only [Option.bind_eq_bind, Option.bind_some, comma]
  cases parseItems fuel more with
  | none => rfl
  | some read => rfl

/-- After an item and a bracket the list ends. -/
theorem parseItems_close {fuel : Nat} (depth : Nat) {cs rest after : List Char} {x : Json}
    (value : parseValue fuel cs = some (x, rest)) (close : skipBlanks rest = ']' :: after) :
    parseItems (fuel + 1) (lineStart depth ++ cs) = some ([x], after) := by
  rw [parseItems, parseValue_lineStart, value]
  simp only [Option.bind_eq_bind, Option.bind_some, close]
  rfl

theorem skipBlanks_lineStart_textChars (depth : Nat) (name : String) (cs : List Char) :
    skipBlanks (lineStart depth ++ textChars name ++ ':' :: cs) =
      Text.doubleQuote :: (name.toList.flatMap escape ++ Text.doubleQuote :: ':' :: cs) := by
  have written : lineStart depth ++ textChars name ++ ':' :: cs = lineStart depth ++
      Text.doubleQuote :: (name.toList.flatMap escape ++ Text.doubleQuote :: ':' :: cs) := by
    simp [textChars]
  rw [written, skipBlanks_lineStart, skipBlanks_cons _ (by decide)]

/-- After a member and a comma come more members. -/
theorem parseMembers_comma {fuel : Nat} (depth : Nat) (name : String)
    {cs rest more : List Char} {x : Json} (value : parseValue fuel cs = some (x, rest))
    (comma : skipBlanks rest = ',' :: more) :
    parseMembers (fuel + 1) (lineStart depth ++ textChars name ++ ':' :: cs) =
      (parseMembers fuel more).map fun read => ((name, x) :: read.1, read.2) := by
  have colon : skipBlanks (':' :: cs) = ':' :: cs := skipBlanks_cons _ (by decide)
  rw [parseMembers, skipBlanks_lineStart_textChars]
  simp only [ne_eq, not_true_eq_false, if_false, parseText_flatMap_escape, colon, value, comma,
    Option.bind_eq_bind, Option.bind_some]
  cases parseMembers fuel more with
  | none => rfl
  | some read => rfl

/-- After a member and a brace the object ends. -/
theorem parseMembers_close {fuel : Nat} (depth : Nat) (name : String)
    {cs rest after : List Char} {x : Json} (value : parseValue fuel cs = some (x, rest))
    (close : skipBlanks rest = '}' :: after) :
    parseMembers (fuel + 1) (lineStart depth ++ textChars name ++ ':' :: cs) =
      some ([(name, x)], after) := by
  have colon : skipBlanks (':' :: cs) = ':' :: cs := skipBlanks_cons _ (by decide)
  rw [parseMembers, skipBlanks_lineStart_textChars]
  simp only [ne_eq, not_true_eq_false, if_false, parseText_flatMap_escape, colon, value, close,
    Option.bind_eq_bind, Option.bind_some]
  rfl

theorem parseValue_space (fuel : Nat) (cs : List Char) :
    parseValue fuel (' ' :: cs) = parseValue fuel cs := by
  rw [← parseValue_skipBlanks, ← parseValue_skipBlanks fuel cs]
  rfl

mutual

/-- A printed value is read back, and what follows it is left. -/
theorem parseValue_chars : ∀ (v : Json) (depth fuel : Nat) (rest : List Char),
    2 * (chars depth v).length ≤ fuel → EndsNumber rest →
      parseValue fuel (chars depth v ++ rest) = some (v, rest)
  | v, depth, 0, rest, enough, _ => by
      obtain ⟨c, more, written, _⟩ := exists_chars depth v
      rw [written, List.length_cons] at enough
      omega
  | null, depth, fuel + 1, rest, _, _ => by rw [chars]; rfl
  | bool true, depth, fuel + 1, rest, _, _ => by rw [chars]; rfl
  | bool false, depth, fuel + 1, rest, _, _ => by rw [chars]; rfl
  | integer n, depth, fuel + 1, rest, _, ends => by
      obtain ⟨c, more, written, begins⟩ := exists_integerChars n
      have number := parseNumber_integerChars n ends
      rw [written, List.cons_append] at number
      rw [chars, written, List.cons_append, parseValue_number fuel begins, number]
  | decimal negative digits exponent, depth, fuel + 1, rest, _, ends => by
      obtain ⟨c, more, written, begins⟩ :=
        exists_decimalChars negative digits ('e' :: integerChars exponent)
      have number := parseNumber_decimal negative digits exponent ends
      rw [written, List.cons_append] at number
      rw [chars, written, List.cons_append, parseValue_number fuel begins, number]
  | text s, depth, fuel + 1, rest, _, _ => by rw [chars, parseValue_text]
  | array [], depth, fuel + 1, rest, _, _ => by rw [chars]; rfl
  | array (x :: xs), depth, fuel + 1, rest, enough, _ => by
      simp only [chars, List.length_cons, List.length_append] at enough
      have items := parseItems_itemChars (x :: xs) (List.cons_ne_nil _ _) (depth + 1) fuel
        (lineStart depth ++ ']' :: rest) rest (by omega) (endsNumber_lineStart _ _)
        (by rw [skipBlanks_lineStart]; rfl)
      have written : chars depth (array (x :: xs)) ++ rest =
          '[' :: (itemChars (depth + 1) (x :: xs) ++ (lineStart depth ++ ']' :: rest)) := by
        simp [chars]
      rw [written, parseValue_array fuel (exists_itemChars _ _ _ _), items]
      rfl
  | object [], depth, fuel + 1, rest, _, _ => by rw [chars]; rfl
  | object (m :: ms), depth, fuel + 1, rest, enough, _ => by
      simp only [chars, List.length_cons, List.length_append] at enough
      have members := parseMembers_memberChars (m :: ms) (List.cons_ne_nil _ _) (depth + 1) fuel
        (lineStart depth ++ '}' :: rest) rest (by omega) (endsNumber_lineStart _ _)
        (by rw [skipBlanks_lineStart]; rfl)
      have written : chars depth (object (m :: ms)) ++ rest =
          '{' :: (memberChars (depth + 1) (m :: ms) ++ (lineStart depth ++ '}' :: rest)) := by
        simp [chars]
      rw [written, parseValue_object fuel (exists_memberChars _ _ _ _), members]
      rfl

/-- Printed items are read back, up to the bracket that ends them. -/
theorem parseItems_itemChars : ∀ (items : List Json), items ≠ [] → ∀ (depth fuel : Nat)
    (close rest : List Char), 2 * (itemChars depth items).length ≤ fuel → EndsNumber close →
      skipBlanks close = ']' :: rest →
        parseItems fuel (itemChars depth items ++ close) = some (items, rest)
  | [], nonempty, _, _, _, _, _, _, _ => absurd rfl nonempty
  | [x], _, depth, fuel, close, rest, enough, ends, closed => by
      simp only [itemChars, List.length_append, length_lineStart] at enough
      obtain ⟨less, rfl⟩ : ∃ less, fuel = less + 1 := ⟨fuel - 1, by omega⟩
      have value := parseValue_chars x depth less close (by omega) ends
      rw [itemChars, List.append_assoc, parseItems_close depth value closed]
  | x :: y :: ys, _, depth, fuel, close, rest, enough, ends, closed => by
      simp only [itemChars, List.length_append, List.length_cons, length_lineStart] at enough
      obtain ⟨less, rfl⟩ : ∃ less, fuel = less + 1 := ⟨fuel - 1, by omega⟩
      have value := parseValue_chars x depth less (',' :: (itemChars depth (y :: ys) ++ close))
        (by omega) (endsNumber_cons _ (by decide))
      have others := parseItems_itemChars (y :: ys) (List.cons_ne_nil _ _) depth less close rest
        (by omega) ends closed
      have written : itemChars depth (x :: y :: ys) ++ close =
          lineStart depth ++ (chars depth x ++ ',' :: (itemChars depth (y :: ys) ++ close)) := by
        simp [itemChars]
      rw [written, parseItems_comma depth value (skipBlanks_cons _ (by decide)), others]
      rfl

/-- Printed members are read back, up to the brace that ends them. -/
theorem parseMembers_memberChars : ∀ (members : List (String × Json)), members ≠ [] →
    ∀ (depth fuel : Nat) (close rest : List Char),
      2 * (memberChars depth members).length ≤ fuel → EndsNumber close →
        skipBlanks close = '}' :: rest →
          parseMembers fuel (memberChars depth members ++ close) = some (members, rest)
  | [], nonempty, _, _, _, _, _, _, _ => absurd rfl nonempty
  | [(name, x)], _, depth, fuel, close, rest, enough, ends, closed => by
      simp only [memberChars, List.length_append, List.length_cons, length_lineStart] at enough
      obtain ⟨less, rfl⟩ : ∃ less, fuel = less + 1 := ⟨fuel - 1, by omega⟩
      have value := parseValue_chars x depth less close (by omega) ends
      rw [← parseValue_space] at value
      rw [memberChars, List.append_assoc, List.cons_append, List.cons_append,
        parseMembers_close depth name value closed]
  | (name, x) :: m :: ms, _, depth, fuel, close, rest, enough, ends, closed => by
      simp only [memberChars, List.length_append, List.length_cons, length_lineStart] at enough
      obtain ⟨less, rfl⟩ : ∃ less, fuel = less + 1 := ⟨fuel - 1, by omega⟩
      have value := parseValue_chars x depth less (',' :: (memberChars depth (m :: ms) ++ close))
        (by omega) (endsNumber_cons _ (by decide))
      have others := parseMembers_memberChars (m :: ms) (List.cons_ne_nil _ _) depth less close rest
        (by omega) ends closed
      rw [← parseValue_space] at value
      have written : memberChars depth ((name, x) :: m :: ms) ++ close =
          lineStart depth ++ textChars name ++
            ':' :: ' ' :: (chars depth x ++ ',' :: (memberChars depth (m :: ms) ++ close)) := by
        simp [memberChars]
      rw [written, parseMembers_comma depth name value (skipBlanks_cons _ (by decide)), others]
      rfl

end

/-- Printing and reading back gives the same value. -/
theorem parse_print (v : Json) : parse v.print = some v := by
  have read := parseValue_chars v 0 (2 * (chars 0 v).length + 1) [] (Nat.le_succ _)
    endsNumber_nil
  rw [List.append_nil] at read
  rw [parse, print, String.toList_ofList, read]
  rfl

theorem print_injective : Function.Injective print := by
  intro v w same
  have read : parse v.print = parse w.print := congrArg parse same
  rw [parse_print, parse_print] at read
  exact Option.some.inj read

end RenderTrace.Json
