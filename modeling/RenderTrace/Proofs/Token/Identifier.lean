import RenderTrace.Token.Classify

/-!
# The kind of an identifier

An identifier begins with a letter, an underscore or any character outside ASCII, and goes on
with these and digits; a qualified name joins identifiers with backslashes. Blank texts and
texts that begin with a digit are told apart from names before the pattern of names is
tried, and the pattern ends at U+FFFF, so not every identifier is a name: the digits, the
blanks and the characters meant are those of all of Unicode.
-/

namespace RenderTrace
open Token Text

/-- A character that may begin an identifier. -/
def isIdentifierStart (c : Char) : Bool :=
  c.isAlpha || c == '_' || 0x80 ≤ c.toNat

/-- A character that may continue an identifier. -/
def isIdentifierPart (c : Char) : Bool :=
  isIdentifierStart c || c.isDigit

/-- An identifier, by its characters. -/
structure Identifier where
  first : Char
  rest : List Char
  first_isStart : isIdentifierStart first
  rest_isPart : rest.all isIdentifierPart

/-- Identifiers joined by backslashes, with or without one in front. -/
structure QualifiedName where
  isRooted : Bool
  first : Identifier
  more : List Identifier

namespace Identifier

def chars (i : Identifier) : List Char :=
  i.first :: i.rest

/-- The characters of an identifier lie in the pattern of names: the first one up to U+FFFF, the
others up to there, or above it if they are characters of words. -/
def InPattern (i : Identifier) : Prop :=
  i.first.toNat ≤ 0xFFFF ∧ i.rest.all fun c => c.toNat ≤ 0xFFFF || isSupplementaryWord c

instance (i : Identifier) : Decidable i.InPattern :=
  inferInstanceAs (Decidable (_ ∧ _))

end Identifier

namespace QualifiedName

/-- The characters behind the first identifier. -/
def behind (more : List Identifier) : List Char :=
  more.flatMap fun i => '\\' :: i.chars

def chars (q : QualifiedName) : List Char :=
  (if q.isRooted then ['\\'] else []) ++ (q.first.chars ++ behind q.more)

def text (q : QualifiedName) : String :=
  String.ofList q.chars

def InPattern (q : QualifiedName) : Prop :=
  ∀ i ∈ q.first :: q.more, i.InPattern

instance (q : QualifiedName) : Decidable q.InPattern :=
  inferInstanceAs (Decidable (∀ _ ∈ _, _))

/-- The kind of a qualified name that is no keyword: white space if all of it is blank, a number if
it begins with a digit, and otherwise a name if it lies in the pattern. -/
def kind (q : QualifiedName) : Kind :=
  if isBlankText q.text then .whitespace
  else if q.chars.head?.any Text.isDigit then .number
  else if q.InPattern then .name
  else .punct

end QualifiedName

/-! ## The pattern -/

theorem lt_of_isAlpha {c : Char} (alpha : c.isAlpha) : c.toNat < 0x80 := by
  rcases Bool.or_eq_true_iff.mp alpha with upper | lower
  · have bounds : 'A'.val ≤ c.val ∧ c.val ≤ 'Z'.val := of_decide_eq_true upper
    have below : c.toNat ≤ 90 := UInt32.le_iff_toNat_le.mp bounds.2
    omega
  · have bounds := Bool.and_eq_true_iff.mp lower
    have below : c.toNat ≤ 122 := UInt32.le_iff_toNat_le.mp (of_decide_eq_true bounds.2)
    omega

theorem isNameStart_of_isIdentifierStart {c : Char} (start : isIdentifierStart c) :
    Kind.isNameStart c = decide (c.toNat ≤ 0xFFFF) := by
  rw [isIdentifierStart, Bool.or_eq_true] at start
  rw [Kind.isNameStart]
  cases ascii : c.isAlpha || c == '_' with
  | true =>
      have low : c.toNat ≤ 0xFFFF := by
        rcases Bool.or_eq_true_iff.mp ascii with alpha | underscore
        · have := lt_of_isAlpha alpha
          omega
        · rw [beq_iff_eq.mp underscore]
          decide
      rw [Bool.true_or, decide_eq_true low]
  | false =>
      rw [ascii, decide_eq_true_eq] at start
      have high : 0x80 ≤ c.toNat := start.resolve_left Bool.false_ne_true
      rw [Bool.false_or, decide_eq_true high, Bool.true_and]

theorem isNameRest_of_isIdentifierPart {c : Char} (part : isIdentifierPart c) :
    Kind.isNameRest c = (decide (c.toNat ≤ 0xFFFF) || isSupplementaryWord c) := by
  rw [isIdentifierPart] at part
  rw [Kind.isNameRest]
  cases digit : c.isDigit with
  | true =>
      have bounds := Bool.and_eq_true_iff.mp digit
      have below : c.toNat ≤ 57 := UInt32.le_iff_toNat_le.mp (of_decide_eq_true bounds.2)
      have low : c.toNat ≤ 0xFFFF := by omega
      rw [Bool.or_true, Bool.true_or, decide_eq_true low, Bool.true_or]
  | false =>
      rw [digit, Bool.or_false] at part
      rw [isNameStart_of_isIdentifierStart part, Bool.or_false]

namespace Identifier

theorem inPattern_iff {i : Identifier} :
    i.InPattern ↔ Kind.isNameStart i.first ∧ i.rest.all Kind.isNameRest := by
  have parts := List.all_eq_true.mp i.rest_isPart
  rw [InPattern, isNameStart_of_isIdentifierStart i.first_isStart, decide_eq_true_eq,
    List.all_eq_true, List.all_eq_true]
  apply and_congr_right'
  apply forall₂_congr
  intro c mem
  rw [isNameRest_of_isIdentifierPart (parts c mem)]

theorem isPart_of_mem_chars {i : Identifier} {c : Char} (mem : c ∈ i.chars) :
    isIdentifierPart c := by
  rcases List.mem_cons.mp mem with rfl | later
  · rw [isIdentifierPart, i.first_isStart, Bool.true_or]
  · exact List.all_eq_true.mp i.rest_isPart c later

end Identifier

theorem continuesName_append {part : List Char} (plain : '\\' ∉ part) (tail : List Char) :
    Kind.continuesName (part ++ tail) = (part.all Kind.isNameRest && Kind.continuesName tail) := by
  induction part with
  | nil => rw [List.nil_append, List.all_nil, Bool.true_and]
  | cons c part ih =>
      rw [List.mem_cons, not_or] at plain
      rw [List.cons_append, Kind.continuesName, ih plain.2, List.all_cons, Bool.and_assoc]
      rintro d rest rfl
      exact absurd rfl plain.1

namespace QualifiedName

theorem isSegments_chars (i : Identifier) (more : List Identifier) :
    Kind.isSegments (i.chars ++ behind more) ↔ ∀ j ∈ i :: more, j.InPattern := by
  have plain (i : Identifier) : '\\' ∉ i.rest :=
    fun mem => absurd (List.all_eq_true.mp i.rest_isPart _ mem) (by decide)
  induction more generalizing i with
  | nil =>
      rw [Identifier.chars, behind, List.flatMap_nil, List.cons_append, Kind.isSegments,
        continuesName_append (plain i), Kind.continuesName, Bool.and_true, Bool.and_eq_true,
        ← Identifier.inPattern_iff]
      simp
  | cons j more ih =>
      have next : Kind.continuesName (behind (j :: more)) =
          Kind.isSegments (j.chars ++ behind more) := by
        rw [behind, List.flatMap_cons]
        rfl
      rw [Identifier.chars, List.cons_append, Kind.isSegments, continuesName_append (plain i), next,
        ← Bool.and_assoc, Bool.and_eq_true, Bool.and_eq_true, ← Identifier.inPattern_iff]
      exact (and_congr_right' (ih j)).trans List.forall_mem_cons.symm

/-- No character of a qualified name ends a line, and its first one opens nothing else. -/
theorem exists_chars_eq (q : QualifiedName) : ∃ c rest, q.chars = c :: rest ∧
    c ∉ ['/', '#', '$', '\'', '"', '.', ':', '<'] := by
  have other : ['/', '#', '$', '\'', '"', '.', ':', '<'].all fun c => !isIdentifierStart c := by
    decide
  rw [chars]
  cases q.isRooted with
  | true => exact ⟨_, _, rfl, by decide⟩
  | false =>
      refine ⟨_, _, rfl, fun mem => ?_⟩
      have never := List.all_eq_true.mp other _ mem
      rw [q.first.first_isStart] at never
      exact absurd never (by decide)

theorem break_not_mem_chars (q : QualifiedName) : '\n' ∉ q.chars := by
  have never (i : Identifier) : '\n' ∉ i.chars :=
    fun mem => absurd (i.isPart_of_mem_chars mem) (by decide)
  have root : '\n' ∉ (if q.isRooted then ['\\'] else []) := by
    cases q.isRooted <;> decide
  have tail : '\n' ∉ behind q.more := by
    intro mem
    obtain ⟨i, _, mem⟩ := List.mem_flatMap.mp mem
    rcases List.mem_cons.mp mem with backslash | mem
    · exact absurd backslash (by decide)
    · exact never i mem
  simp only [chars, List.mem_append, not_or]
  exact ⟨root, never q.first, tail⟩

theorem isName_chars (q : QualifiedName) : Kind.isName q.chars ↔ q.InPattern := by
  have segments := isSegments_chars q.first q.more
  rw [chars]
  cases q.isRooted with
  | true => exact segments
  | false =>
      have plain : q.first.first ≠ '\\' := by
        intro backslash
        have start := q.first.first_isStart
        rw [backslash] at start
        exact absurd start (by decide)
      rw [if_neg Bool.false_ne_true, List.nil_append, Kind.isName]
      · exact segments
      · rintro rest same
        exact plain (List.cons.inj same).1

theorem opensComment_cons {c : Char} {rest : List Char} (slash : c ≠ '/') (hash : c ≠ '#') :
    Kind.opensComment (c :: rest) = false := by
  unfold Kind.opensComment
  split
  next same => exact absurd (List.cons.inj same).1 slash
  next same => exact absurd (List.cons.inj same).1 slash
  next => rfl
  next same => exact absurd (List.cons.inj same).1 hash
  next => rfl

theorem ofList_cons_ne {c d : Char} {rest other : List Char} (different : c ≠ d) :
    String.ofList (c :: rest) ≠ String.ofList (d :: other) :=
  fun same => different (List.cons.inj (String.ofList_injective same)).1

/-- The kind of a qualified name that is no keyword. -/
theorem ofText_text (q : QualifiedName) (plain : Kind.keyword? q.text = none) :
    Kind.ofText "" q.text = q.kind := by
  obtain ⟨c, rest, split, other⟩ := q.exists_chars_eq
  simp only [List.mem_cons, List.not_mem_nil, or_false, not_or] at other
  obtain ⟨slash, hash, dollar, quote, double, dot, colon, less⟩ := other
  have ends : Kind.dropFinalFeed q.chars = q.chars := by
    rw [Kind.dropFinalFeed, if_neg]
    intro last
    exact q.break_not_mem_chars (List.mem_of_getLast? last)
  have comment : Kind.opensComment q.chars = false := by
    rw [split, opensComment_cons slash hash]
  have head : q.chars.head? = some c := by rw [split, List.head?_cons]
  have unquoted : isQuote c = false := by simp [isQuote, singleQuote, doubleQuote, quote, double]
  have dots : q.text ≠ "..." := by
    rw [text, split]
    exact ofList_cons_ne dot
  have colons : q.text ≠ "::" := by
    rw [text, split]
    exact ofList_cons_ne colon
  have tag : q.chars.take 2 ≠ ['<', '?'] := by
    rw [split, List.take_succ_cons]
    exact fun same => less (List.cons.inj same).1
  have characters : q.text.toList = q.chars := String.toList_ofList
  have nowhere : "" ∉ Kind.stringNodeTypes := by decide
  rw [kind, Kind.ofText]
  simp only [characters, plain, head, ends, comment, q.isName_chars, Option.any_some, unquoted,
    if_neg nowhere, if_neg dots, if_neg colons, Option.some.injEq, dollar, tag]
  simp

end QualifiedName

end RenderTrace
