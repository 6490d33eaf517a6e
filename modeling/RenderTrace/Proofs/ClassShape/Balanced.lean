import RenderTrace.ClassShape.Method

/-!
# Balanced tokens

Brackets of one kind are balanced when none closes before it was opened and none
stays open. A block that holds balanced braces ends at the brace written to end it,
and a parameter whose brackets are balanced ends at the comma or parenthesis
written after it.
-/

namespace RenderTrace.Token

/-- Brackets are balanced after so many that are open already. -/
def balancedFrom (opens closes : Token → Bool) : Nat → List Token → Bool
  | depth, [] => depth == 0
  | depth, t :: rest =>
    if opens t then balancedFrom opens closes (depth + 1) rest
    else if closes t then depth != 0 && balancedFrom opens closes (depth - 1) rest
    else balancedFrom opens closes depth rest

def opensBrace (t : Token) : Bool := t.text == openBrace

def closesBrace (t : Token) : Bool := t.text == closeBrace

/-- Every brace is closed by a later one. -/
def bracesBalanced (tokens : List Token) : Bool :=
  balancedFrom opensBrace closesBrace 0 tokens

theorem bracesBalanced_nil : bracesBalanced [] := rfl

def opensBracket (t : Token) : Bool := ["(", "[", openBrace, "#["].contains t.text

def closesBracket (t : Token) : Bool := [")", "]", closeBrace].contains t.text

/-- Brackets of any kind are balanced, their kinds not told apart. -/
def bracketsBalanced (tokens : List Token) : Bool :=
  balancedFrom opensBracket closesBracket 0 tokens

def opensSquare (t : Token) : Bool := ["[", "#["].contains t.text

def closesSquare (t : Token) : Bool := t.text == "]"

/-- Square brackets are balanced. -/
def squaresBalanced (tokens : List Token) : Bool :=
  balancedFrom opensSquare closesSquare 0 tokens

/-- Outside brackets the token would end a parameter or its list. -/
def endsParameter (t : Token) : Bool := [",", ";", openBrace].contains t.text

/-- Brackets are balanced after so many that are open already, and outside them nothing ends a
parameter. -/
def containedFrom : Nat → List Token → Bool
  | depth, [] => depth == 0
  | depth, t :: rest =>
    if depth == 0 && endsParameter t then false
    else if opensBracket t then containedFrom (depth + 1) rest
    else if closesBracket t then depth != 0 && containedFrom (depth - 1) rest
    else containedFrom depth rest

/-- The tokens can stand in one parameter. -/
def isContained (tokens : List Token) : Bool :=
  containedFrom 0 tokens

/-- A function keyword, when no brace is open. -/
def declaresAt (depth : Nat) (t : Token) : Bool :=
  depth == 0 && t.kind == .function

/-- Braces are balanced after so many that are open already, and outside them no function is
declared. -/
def asideFrom : Nat → List Token → Bool
  | depth, [] => depth == 0
  | depth, t :: rest =>
    if opensBrace t then asideFrom (depth + 1) rest
    else if closesBrace t then depth != 0 && asideFrom (depth - 1) rest
    else !declaresAt depth t && asideFrom depth rest

/-- The tokens declare no method of the class they stand in. -/
def isAside (tokens : List Token) : Bool :=
  asideFrom 0 tokens

theorem asideFrom_of_balancedFrom {ts : List Token} {depth : Nat}
    (balanced : balancedFrom opensBrace closesBrace depth ts) (none : ∀ t ∈ ts, t.kind ≠ .function) :
    asideFrom depth ts := by
  induction ts generalizing depth with
  | nil => exact balanced
  | cons t ts ih =>
      obtain ⟨kind, later⟩ := List.forall_mem_cons.mp none
      rw [balancedFrom] at balanced
      rw [asideFrom]
      split at balanced
      next isOpen => rw [if_pos isOpen, ih balanced later]
      next notOpen =>
        rw [if_neg notOpen]
        split at balanced
        next isClose =>
          obtain ⟨deep, balanced⟩ := Bool.and_eq_true_iff.mp balanced
          rw [if_pos isClose, deep, ih balanced later, Bool.and_self]
        next notClose =>
          have declares : declaresAt depth t = false := by simp [declaresAt, kind]
          rw [if_neg notClose, declares, ih balanced later, Bool.not_false, Bool.and_self]

/-- Tokens with balanced braces and without a function keyword declare no method. -/
theorem isAside_of_bracesBalanced {ts : List Token} (balanced : bracesBalanced ts)
    (none : ∀ t ∈ ts, t.kind ≠ .function) : isAside ts :=
  asideFrom_of_balancedFrom balanced none

/-! ## Scanning -/

/-- A scan that counts open brackets passes over balanced tokens, and counts as many after them
as before; below the depth `low` it may do otherwise. -/
theorem scan_balanced {β : Type} {opens closes : Token → Bool} (scan : Nat → List Token → β)
    (low : Nat)
    (opening : ∀ depth t rest, low ≤ depth → opens t →
      scan depth (t :: rest) = scan (depth + 1) rest)
    (closing : ∀ depth t rest, low ≤ depth → opens t = false → closes t →
      scan (depth + 1) (t :: rest) = scan depth rest)
    (plain : ∀ depth t rest, low ≤ depth → opens t = false → closes t = false →
      scan depth (t :: rest) = scan depth rest)
    {ts : List Token} {depth k : Nat} (rest : List Token) (deep : low ≤ k)
    (h : balancedFrom opens closes depth ts) : scan (depth + k) (ts ++ rest) = scan k rest := by
  induction ts generalizing depth with
  | nil =>
      have zero : depth = 0 := by simpa [balancedFrom] using h
      rw [zero, Nat.zero_add, List.nil_append]
  | cons t ts ih =>
      have deeper : low ≤ depth + k := by omega
      rw [balancedFrom] at h
      rw [List.cons_append]
      split at h
      next isOpen =>
        rw [opening _ t _ deeper isOpen, ← ih h]
        congr 1
        omega
      next notOpen =>
        have notOpen : opens t = false := by simpa using notOpen
        split at h
        next isClose =>
          obtain ⟨positive, h⟩ := by simpa using h
          obtain ⟨less, equal⟩ : ∃ less, depth = less + 1 := ⟨depth - 1, by omega⟩
          have higher : low ≤ less + k := by omega
          have same : depth + k = less + k + 1 := by omega
          rw [same, closing _ t _ higher notOpen isClose]
          apply ih
          rw [equal, Nat.add_sub_cancel] at h
          exact h
        next notClose =>
          rw [plain _ t _ deeper notOpen (by simpa using notClose)]
          exact ih h

/-! ## Blocks -/

theorem afterClose_append {ts : List Token} {depth : Nat} (k : Nat) (rest : List Token)
    (h : balancedFrom opensBrace closesBrace depth ts) :
    afterClose (depth + k) (ts ++ rest) = afterClose k rest := by
  refine scan_balanced afterClose 0 ?_ ?_ ?_ rest (Nat.zero_le k) h
  · intro depth t rest _ isOpen
    have text : t.text = openBrace := by simpa [opensBrace] using isOpen
    rw [afterClose, if_pos text]
  · intro depth t rest _ notOpen isClose
    have other : t.text ≠ openBrace := by simpa [opensBrace] using notOpen
    have text : t.text = closeBrace := by simpa [closesBrace] using isClose
    rw [afterClose, if_neg other, if_pos text, if_neg (Nat.succ_ne_zero depth),
      Nat.add_sub_cancel]
  · intro depth t rest _ notOpen notClose
    have other : t.text ≠ openBrace := by simpa [opensBrace] using notOpen
    have text : t.text ≠ closeBrace := by simpa [closesBrace] using notClose
    rw [afterClose, if_neg other, if_neg text]

/-- A block ends at the brace that is written after its balanced tokens. -/
theorem afterBlock_block {o c : Token} {ts : List Token} (rest : List Token)
    (balanced : bracesBalanced ts) (closes : c.text = closeBrace) :
    afterBlock (o :: ts ++ c :: rest) = rest := by
  have other : closeBrace ≠ openBrace := by decide
  have inside := afterClose_append 0 (c :: rest) balanced
  rw [Nat.zero_add] at inside
  rw [afterBlock, List.cons_append, List.tail_cons, inside, afterClose, closes, if_neg other,
    if_pos rfl, if_pos rfl]

/-- A block among tokens that declare nothing ends within them. -/
theorem exists_afterClose_of_aside {ts : List Token} {depth : Nat}
    (h : asideFrom (depth + 1) ts) : ∃ inner later, ts = inner ++ later ∧ asideFrom 0 later ∧
      ∀ rest, afterClose depth (ts ++ rest) = later ++ rest := by
  induction ts generalizing depth with
  | nil => exact absurd h (by simp [asideFrom])
  | cons t ts ih =>
      rw [asideFrom] at h
      split at h
      next opens =>
        have text : t.text = openBrace := by simpa [opensBrace] using opens
        obtain ⟨inner, later, rfl, aside, after⟩ := ih h
        refine ⟨t :: inner, later, rfl, aside, ?_⟩
        intro rest
        rw [List.cons_append, afterClose, if_pos text]
        exact after rest
      next opens =>
        have text : t.text ≠ openBrace := by simpa [opensBrace] using opens
        split at h
        next closes =>
          have close : t.text = closeBrace := by simpa [closesBrace] using closes
          have h : asideFrom depth ts := by simpa using h
          cases depth with
          | zero =>
              refine ⟨[t], ts, rfl, h, ?_⟩
              intro rest
              rw [List.cons_append, afterClose, if_neg text, if_pos close, if_pos rfl]
          | succ depth =>
              obtain ⟨inner, later, rfl, aside, after⟩ := ih h
              refine ⟨t :: inner, later, rfl, aside, ?_⟩
              intro rest
              rw [List.cons_append, afterClose, if_neg text, if_pos close, if_neg (by omega)]
              exact after rest
        next closes =>
          have close : t.text ≠ closeBrace := by simpa [closesBrace] using closes
          obtain ⟨_, h⟩ := by simpa using h
          obtain ⟨inner, later, rfl, aside, after⟩ := ih h
          refine ⟨t :: inner, later, rfl, aside, ?_⟩
          intro rest
          rw [List.cons_append, afterClose, if_neg text, if_neg close]
          exact after rest

end RenderTrace.Token
