import Mathlib.Order.Bounds.Basic
import RenderTrace.Proofs.ClassShape.Written

/-!
# Where a block ends

The reader passes over a block by counting the braces that are open. The count falls to
zero for the first time at the least position up to which as many braces were closed as
opened, and never where there is no such position. So a block with balanced braces inside
ends right behind its own closing brace.
-/

namespace RenderTrace.Token

/-- From one position up to another as many braces are opened as closed. -/
def BracesEven (tokens : List Token) (p r : Nat) : Prop :=
  ((tokens.take r).drop p).countP opensBrace = ((tokens.take r).drop p).countP closesBrace

instance (tokens : List Token) (p r : Nat) : Decidable (BracesEven tokens p r) :=
  inferInstanceAs (Decidable (_ = _))

/-- The position behind the block whose opening brace stands at `p`. -/
def blockEnd (tokens : List Token) (p : Nat) : Nat :=
  tokens.length - (afterBlock (tokens.drop p)).length

/-- Among the first `k` tokens the block is closed that is open at the given depth before them:
they close one brace more than they open, and one for each level that lies around it. -/
def ClosesWithin (depth : Nat) (tokens : List Token) (k : Nat) : Prop :=
  (tokens.take k).countP closesBrace = (tokens.take k).countP opensBrace + depth + 1

variable {depth : Nat} {t : Token} {tokens : List Token}

theorem not_closesWithin_zero : ¬ ClosesWithin depth tokens 0 := by
  simp [ClosesWithin]

theorem closesBrace_of_opensBrace (isOpen : t.text = openBrace) : closesBrace t = false := by
  rw [closesBrace, isOpen]
  rfl

theorem closesWithin_open (isOpen : t.text = openBrace) (k : Nat) :
    ClosesWithin depth (t :: tokens) (k + 1) ↔ ClosesWithin (depth + 1) tokens k := by
  have opens : opensBrace t = true := by simpa [opensBrace] using isOpen
  have closes : closesBrace t = false := closesBrace_of_opensBrace isOpen
  simp only [ClosesWithin, List.take_succ_cons, List.countP_cons, opens, closes]
  simp only [Bool.false_eq_true, if_false, if_true]
  omega

theorem closesWithin_close (notOpen : t.text ≠ openBrace) (isClose : t.text = closeBrace)
    (k : Nat) :
    ClosesWithin depth (t :: tokens) (k + 1) ↔
      (tokens.take k).countP closesBrace = (tokens.take k).countP opensBrace + depth := by
  have opens : opensBrace t = false := by simpa [opensBrace] using notOpen
  have closes : closesBrace t = true := by simpa [closesBrace] using isClose
  simp only [ClosesWithin, List.take_succ_cons, List.countP_cons, opens, closes]
  simp only [Bool.false_eq_true, if_false, if_true]
  omega

theorem closesWithin_plain (notOpen : t.text ≠ openBrace) (notClose : t.text ≠ closeBrace)
    (k : Nat) : ClosesWithin depth (t :: tokens) (k + 1) ↔ ClosesWithin depth tokens k := by
  have opens : opensBrace t = false := by simpa [opensBrace] using notOpen
  have closes : closesBrace t = false := by simpa [closesBrace] using notClose
  simp only [ClosesWithin, List.take_succ_cons, List.countP_cons, opens, closes]
  simp only [Bool.false_eq_true, if_false, Nat.add_zero]

/-- What is left behind a block: the tokens after the fewest that close it, or none. -/
def LeftBehind (depth : Nat) (tokens rest : List Token) : Prop :=
  (∃ k ≤ tokens.length, rest = tokens.drop k ∧ IsLeast {k | ClosesWithin depth tokens k} k) ∨
    rest = [] ∧ ∀ k, ¬ ClosesWithin depth tokens k

/-- The first token changes the depth and nothing else. -/
theorem LeftBehind.cons {next : Nat} {rest : List Token}
    (shift : ∀ k, ClosesWithin depth (t :: tokens) (k + 1) ↔ ClosesWithin next tokens k)
    (left : LeftBehind next tokens rest) : LeftBehind depth (t :: tokens) rest := by
  rcases left with ⟨k, inside, rfl, closes, least⟩ | ⟨rfl, never⟩
  · refine .inl ⟨k + 1, Nat.succ_le_succ inside, rfl, (shift k).mpr closes, ?_⟩
    intro j (closesAt : ClosesWithin depth _ j)
    cases j with
    | zero => exact absurd closesAt not_closesWithin_zero
    | succ j => exact Nat.succ_le_succ (least ((shift j).mp closesAt))
  · refine .inr ⟨rfl, fun k closesAt => ?_⟩
    cases k with
    | zero => exact not_closesWithin_zero closesAt
    | succ k => exact never k ((shift k).mp closesAt)

theorem leftBehind_afterClose (depth : Nat) (tokens : List Token) :
    LeftBehind depth tokens (afterClose depth tokens) := by
  induction tokens generalizing depth with
  | nil =>
      refine .inr ⟨rfl, fun k => ?_⟩
      simp [ClosesWithin]
  | cons t tokens ih =>
      rw [afterClose]
      split
      next isOpen => exact (ih (depth + 1)).cons (closesWithin_open isOpen)
      next notOpen =>
        split
        next isClose =>
          cases depth with
          | zero =>
              have closes : ClosesWithin 0 (t :: tokens) 1 :=
                (closesWithin_close notOpen isClose 0).mpr rfl
              rw [if_pos rfl]
              refine .inl ⟨1, by simp, rfl, closes, fun j (closesAt : ClosesWithin 0 _ j) => ?_⟩
              cases j with
              | zero => exact absurd closesAt not_closesWithin_zero
              | succ j => exact Nat.succ_le_succ (Nat.zero_le j)
          | succ depth =>
              rw [if_neg (Nat.succ_ne_zero depth), Nat.add_sub_cancel]
              exact (ih depth).cons (closesWithin_close notOpen isClose)
        next notClose => exact (ih depth).cons (closesWithin_plain notOpen notClose)

/-! ## Positions -/

variable {p : Nat}

theorem drop_eq_cons (there : tokens[p]? = some t) : tokens.drop p = t :: tokens.drop (p + 1) := by
  obtain ⟨inside, rfl⟩ := List.getElem?_eq_some_iff.mp there
  exact List.drop_eq_getElem_cons inside

/-- Behind an opening brace the braces are even again where the block is closed. -/
theorem bracesEven_iff (there : tokens[p]? = some t) (isOpen : t.text = openBrace) (k : Nat) :
    BracesEven tokens p (p + 1 + k) ↔ ClosesWithin 0 (tokens.drop (p + 1)) k := by
  have opens : opensBrace t = true := by simpa [opensBrace] using isOpen
  have closes : closesBrace t = false := closesBrace_of_opensBrace isOpen
  have length : p + 1 + k - p = k + 1 := by omega
  rw [BracesEven, List.drop_take, length, drop_eq_cons there, List.take_succ_cons]
  simp only [ClosesWithin, List.countP_cons, opens, closes]
  simp only [Bool.false_eq_true, if_false, if_true]
  omega

/-- Where the block that opens at `p` ends, and what is left behind it. -/
theorem blockEnd_cases (there : tokens[p]? = some t) (isOpen : t.text = openBrace) :
    tokens.drop (blockEnd tokens p) = afterBlock (tokens.drop p) ∧
      (IsLeast {r | p < r ∧ BracesEven tokens p r} (blockEnd tokens p) ∨
        (∀ r, p < r → ¬ BracesEven tokens p r) ∧ blockEnd tokens p = tokens.length) := by
  obtain ⟨inside, _⟩ := List.getElem?_eq_some_iff.mp there
  have after : afterBlock (tokens.drop p) = afterClose 0 (tokens.drop (p + 1)) := by
    rw [drop_eq_cons there, afterBlock, List.tail_cons]
  rcases leftBehind_afterClose 0 (tokens.drop (p + 1)) with ⟨k, short, rest, closes, least⟩ |
    ⟨rest, never⟩
  · rw [List.length_drop] at short
    have ends : blockEnd tokens p = p + 1 + k := by
      rw [blockEnd, after, rest, List.length_drop, List.length_drop]
      omega
    refine ⟨by rw [ends, after, rest, List.drop_drop], .inl ?_⟩
    rw [ends]
    refine ⟨⟨by omega, (bracesEven_iff there isOpen k).mpr closes⟩, ?_⟩
    rintro r ⟨behind, even⟩
    obtain ⟨j, rfl⟩ := Nat.exists_eq_add_of_le (Nat.succ_le_of_lt behind)
    exact Nat.add_le_add_left (least ((bracesEven_iff there isOpen j).mp even)) (p + 1)
  · have ends : blockEnd tokens p = tokens.length := by
      rw [blockEnd, after, rest, List.length_nil, Nat.sub_zero]
    refine ⟨by rw [ends, after, rest, List.drop_length], .inr ⟨fun r behind even => ?_, ends⟩⟩
    obtain ⟨j, rfl⟩ := Nat.exists_eq_add_of_le (Nat.succ_le_of_lt behind)
    exact never j ((bracesEven_iff there isOpen j).mp even)

/-- A block with balanced braces inside ends right behind its closing brace. -/
theorem blockEnd_block (before : List Token) {o c : Token} {inner : List Token}
    (after : List Token) (balanced : bracesBalanced inner) (closes : c.text = closeBrace) :
    blockEnd (before ++ (o :: inner ++ c :: after)) before.length =
      before.length + inner.length + 2 := by
  have dropped : (before ++ (o :: inner ++ c :: after)).drop before.length =
      o :: inner ++ c :: after := List.drop_left
  rw [blockEnd, dropped, afterBlock_block after balanced closes]
  simp only [List.length_append, List.length_cons]
  omega

/-- A block ends at the least position behind its opening brace up to which as many braces are
closed as opened, or with the tokens if there is none, and the tokens from there on are the ones
that reading goes on with. A block with balanced braces inside ends right behind its last token,
whatever follows, and other balanced tokens inside it move the end by the difference of their
numbers. -/
theorem blockEnd_matches :
    (∀ (tokens : List Token) (p : Nat) (t : Token), tokens[p]? = some t → t.text = openBrace →
      tokens.drop (blockEnd tokens p) = afterBlock (tokens.drop p) ∧
        (IsLeast {r | p < r ∧ BracesEven tokens p r} (blockEnd tokens p) ∨
          (∀ r, p < r → ¬ BracesEven tokens p r) ∧ blockEnd tokens p = tokens.length)) ∧
    ∀ (before : List Token) (o c : Token) (inner other after : List Token),
      o.text = openBrace → c.text = closeBrace → bracesBalanced inner → bracesBalanced other →
      blockEnd (before ++ (o :: inner ++ c :: after)) before.length =
          before.length + (o :: inner ++ [c]).length ∧
        (blockEnd (before ++ (o :: other ++ c :: after)) before.length : Int) -
            blockEnd (before ++ (o :: inner ++ c :: after)) before.length =
          other.length - inner.length := by
  refine ⟨fun tokens p t there isOpen => blockEnd_cases there isOpen, ?_⟩
  intro before o c inner other after isOpen isClose balanced balancedOther
  rw [blockEnd_block before after balanced isClose, blockEnd_block before after balancedOther isClose]
  constructor
  · simp only [List.length_append, List.length_cons, List.length_nil]
    omega
  · omega

/-- A block inside a block, and behind them one that nothing closes. -/
def nestedBlocks : List Token :=
  [mark openBrace 1, mark openBrace 2, mark closeBrace 3, mark closeBrace 4, mark openBrace 5]

theorem blockEnd_matches_nestedBlocks :
    IsLeast {r | 0 < r ∧ BracesEven nestedBlocks 0 r} (blockEnd nestedBlocks 0) ∧
      blockEnd nestedBlocks 0 = 4 ∧
      (blockEnd [mark openBrace 1, mark closeBrace 4, mark openBrace 5] 0 : Int) -
        blockEnd nestedBlocks 0 = -2 := by
  obtain ⟨least, block⟩ := blockEnd_matches
  obtain ⟨ends, moved⟩ := block [] (mark openBrace 1) (mark closeBrace 4)
    [mark openBrace 2, mark closeBrace 3] [] [mark openBrace 5] rfl rfl (by decide) (by decide)
  refine ⟨?_, ends, moved⟩
  rcases (least nestedBlocks 0 (mark openBrace 1) rfl rfl).2 with closed | ⟨never, _⟩
  · exact closed
  · exact absurd (by decide) (never 4 (by decide))

end RenderTrace.Token
