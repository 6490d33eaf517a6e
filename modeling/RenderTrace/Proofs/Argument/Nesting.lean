import Mathlib.Algebra.Ring.Int.Defs
import RenderTrace.Argument

/-!
# Nesting in the text of a call

What commas and closing brackets mean in a text depends on the quotes and brackets
before them. A backslash inside quotes hides the next character; inside quotes brackets
and commas mean nothing; and the kinds of brackets are not told apart.
-/

namespace RenderTrace.Argument

/-- A quoted text that is open: its quote, and whether a backslash hides the next character. -/
structure Quotation where
  quote : Char
  hides : Bool
deriving DecidableEq

/-- The quoted text that is open after one more character. -/
def Quotation.next : Option Quotation → Char → Option Quotation
  | none, c => if Text.isQuote c then some ⟨c, false⟩ else none
  | some ⟨q, true⟩, _ => some ⟨q, false⟩
  | some ⟨q, false⟩, c =>
    if c = '\\' then some ⟨q, true⟩ else if c = q then none else some ⟨q, false⟩

/-- The quoted text that is open at the end of a text. -/
def quotation (cs : List Char) : Option Quotation :=
  cs.foldl Quotation.next none

/-- What a character outside quotes adds to the number of open brackets. -/
def change (c : Char) : Int :=
  if isOpener c then 1 else if isCloser c then -1 else 0

/-- What each character of a text adds to the number of open brackets, when `open?` is the quoted
text that is open before it. -/
def changesFrom (open? : Option Quotation) : List Char → List Int
  | [] => []
  | c :: rest =>
    (if open? = none then change c else 0) :: changesFrom (Quotation.next open? c) rest

/-- What each character of a text adds to the number of open brackets. -/
def changes (cs : List Char) : List Int :=
  changesFrom none cs

/-- The number of brackets a text opens, less the number of those it closes. -/
def depth (cs : List Char) : Int :=
  (changes cs).sum

/-- Neither a quoted text nor a bracket is open at the end of the text. -/
def IsClosed (cs : List Char) : Prop :=
  quotation cs = none ∧ depth cs = 0

instance (cs : List Char) : Decidable (IsClosed cs) :=
  inferInstanceAs (Decidable (_ ∧ _))

/-- A closing bracket behind a text is unmatched: it stands outside quotes, and no end part of the
text opens more brackets than it closes. -/
def IsUnmatched (front : List Char) (c : Char) : Prop :=
  isCloser c ∧ quotation front = none ∧ ∀ late, late <:+ changes front → late.sum ≤ 0

/-- A comma behind a text separates: neither a quoted text nor a bracket is open there. -/
def IsSeparator (front : List Char) (c : Char) : Prop :=
  c = ',' ∧ IsClosed front

/-- Nothing in the text cuts it: no comma in it separates, and no closing bracket is unmatched. -/
def IsWhole (cs : List Char) : Prop :=
  ∀ front c back, cs = front ++ c :: back → ¬ IsSeparator front c ∧ ¬ IsUnmatched front c

/-- An argument that can stand between commas as it is. -/
def IsSelfContained (cs : List Char) : Prop :=
  IsClosed cs ∧ IsWhole cs

/-- No part of the text from its beginning on closes more brackets than it opens. -/
def IsMatched (cs : List Char) : Prop :=
  ∀ k, 0 ≤ depth (cs.take k)

/-! ## Texts one after another -/

theorem changesFrom_append (open? : Option Quotation) (a b : List Char) :
    changesFrom open? (a ++ b) =
      changesFrom open? a ++ changesFrom (a.foldl Quotation.next open?) b := by
  induction a generalizing open? with
  | nil => rfl
  | cons c a ih =>
      rw [List.cons_append, changesFrom, ih, changesFrom, List.cons_append]
      rfl

theorem take_changesFrom (open? : Option Quotation) (a : List Char) (k : Nat) :
    (changesFrom open? a).take k = changesFrom open? (a.take k) := by
  induction a generalizing open? k with
  | nil => simp [changesFrom]
  | cons c a ih =>
      cases k with
      | zero => rfl
      | succ k => rw [changesFrom, List.take_succ_cons, ih, List.take_succ_cons, changesFrom]

variable {a b : List Char} {c : Char}

theorem quotation_append : quotation (a ++ b) = b.foldl Quotation.next (quotation a) :=
  List.foldl_append

theorem depth_append (outside : quotation a = none) : depth (a ++ b) = depth a + depth b := by
  rw [quotation] at outside
  rw [depth, changes, changesFrom_append, outside, List.sum_append]
  rfl

theorem IsClosed.append (first : IsClosed a) (second : IsClosed b) : IsClosed (a ++ b) := by
  constructor
  · rw [quotation_append, first.1]
    exact second.1
  · rw [depth_append first.1, first.2, second.2, Int.zero_add]

theorem isClosed_comma : IsClosed [','] := by
  decide

/-- What is matched on its own stays so behind a closed text. -/
theorem IsMatched.append (first : IsMatched a) (closed : IsClosed a) (second : IsMatched b) :
    IsMatched (a ++ b) := by
  intro k
  rw [List.take_append]
  by_cases within : k ≤ a.length
  · rw [Nat.sub_eq_zero_of_le within, List.take_zero, List.append_nil]
    exact first k
  · rw [List.take_of_length_le (by omega), depth_append closed.1, closed.2, Int.zero_add]
    exact second _

theorem isMatched_comma : IsMatched [','] := by
  intro k
  cases k with
  | zero => decide
  | succ k => rw [List.take_succ_cons, List.take_nil]; decide

/-! ## Unmatched closing brackets -/

theorem change_of_isCloser (closes : isCloser c) : change c = -1 := by
  rw [change, if_neg, if_pos closes]
  intro opens
  simp only [isOpener, isCloser, Bool.or_eq_true, beq_iff_eq] at opens closes
  rcases opens with (rfl | rfl) | rfl <;> exact absurd closes (by decide)

/-- In a matched text no closing bracket is unmatched. -/
theorem IsMatched.not_isUnmatched {front back : List Char}
    (matched : IsMatched (front ++ c :: back)) : ¬ IsUnmatched front c := by
  rintro ⟨closes, outside, closesMore⟩
  have before : depth front ≤ 0 := closesMore _ List.suffix_rfl
  have one : depth [c] = -1 := by
    have change := change_of_isCloser closes
    simp [depth, changes, changesFrom, change]
  have deep := matched (front.length + 1)
  rw [List.take_append, List.take_of_length_le (Nat.le_succ _), Nat.add_sub_cancel_left,
    List.take_succ_cons, List.take_zero, depth_append outside, one] at deep
  omega

/-- A closing bracket behind a matched and closed text is unmatched. -/
theorem IsMatched.isUnmatched (matched : IsMatched a) (closed : IsClosed a) (closes : isCloser c) :
    IsUnmatched a c := by
  refine ⟨closes, closed.1, ?_⟩
  rintro late ⟨early, split⟩
  have front : 0 ≤ early.sum := by
    have start : early = (changes a).take early.length := by rw [← split, List.take_left]
    rw [start, changes, take_changesFrom]
    exact matched _
  have total : (changes a).sum = 0 := closed.2
  rw [← split, List.sum_append] at total
  omega

end RenderTrace.Argument
