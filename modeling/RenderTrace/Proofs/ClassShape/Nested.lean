import RenderTrace.Proofs.ClassShape.Unclosed

/-!
# Nested brackets

Brackets are nested when each is closed by one of its kind. A parameter list is cut
at depths that do not tell the kinds apart, and a semicolon or brace outside of the
inner brackets ends it early. Of a nested list that leaves a nested part, which
declares no method unless it holds a keyword for one.
-/

namespace RenderTrace
open Token

namespace Token

/-- The text that closes an opening bracket. -/
def closerOf? (t : Token) : Option String :=
  if t.text = "(" then some ")"
  else if t.text = "[" ∨ t.text = "#[" then some "]"
  else if t.text = openBrace then some closeBrace
  else none

/-- Each bracket is closed by one of its kind, after some that are open already; these are given by
what closes them, innermost first. -/
def nestedFrom : List String → List Token → Bool
  | expected, [] => expected.isEmpty
  | expected, t :: rest =>
    match closerOf? t with
    | some closer => nestedFrom (closer :: expected) rest
    | none =>
      if closesBracket t then expected.head? == some t.text && nestedFrom expected.tail rest
      else nestedFrom expected rest

/-- Each bracket is closed by one of its kind. -/
def isNested (tokens : List Token) : Bool :=
  nestedFrom [] tokens

theorem isSome_closerOf? (t : Token) : (closerOf? t).isSome = opensBracket t := by
  rw [closerOf?]
  split
  next text => simp [opensBracket, text]
  next noRound =>
    split
    next text => rcases text with text | text <;> simp [opensBracket, text]
    next noSquare =>
      split
      next text => simp [opensBracket, text]
      next noBrace => simp [opensBracket, noRound, not_or.mp noSquare, noBrace]

theorem of_no_bracket {t : Token} (opens : opensBracket t = false)
    (closes : closesBracket t = false) : !t.isBrace ∧ t.text ≠ ")" := by
  simp only [opensBracket, closesBracket, List.contains_eq_mem, decide_eq_false_iff_not,
    List.mem_cons, not_or] at opens closes
  exact ⟨by simp [isBrace, opensBrace, closesBrace, opens.2.2.1, closes.2.2.1], closes.1⟩

/-- What a token does to the brackets that are open. -/
theorem nestedFrom_cons {t : Token} {expected : List String} {rest : List Token}
    (nested : nestedFrom expected (t :: rest)) :
    (∃ closer, closerOf? t = some closer ∧ t.depthChange = 1 ∧
      nestedFrom (closer :: expected) rest) ∨
    (∃ more, expected = t.text :: more ∧ t.depthChange = -1 ∧ closerOf? t = none ∧
      nestedFrom more rest) ∨
    t.depthChange = 0 ∧ !t.isBrace ∧ t.text ≠ ")" ∧ nestedFrom expected rest := by
  have opensBracket_eq := (isSome_closerOf? t).symm
  rw [depthChange_eq]
  rw [nestedFrom] at nested
  split at nested
  next closer opens =>
    rw [opens, Option.isSome_some] at opensBracket_eq
    exact .inl ⟨closer, opens, if_pos opensBracket_eq, nested⟩
  next opens =>
    rw [opens, Option.isSome_none] at opensBracket_eq
    rw [opensBracket_eq, if_neg Bool.false_ne_true]
    split at nested
    next closes =>
      obtain ⟨head, nested⟩ := Bool.and_eq_true_iff.mp nested
      cases expected with
      | nil => exact absurd head (by simp)
      | cons closer more =>
          obtain rfl : closer = t.text := by simpa using head
          exact .inr (.inl ⟨more, rfl, if_pos closes, opens, nested⟩)
    next closes =>
      have noClose : closesBracket t = false := by simpa using closes
      obtain ⟨brace, round⟩ := of_no_bracket opensBracket_eq noClose
      exact .inr (.inr ⟨if_neg closes, brace, round, nested⟩)

theorem closerOf?_eq_some {t : Token} {closer : String} (opens : closerOf? t = some closer) :
    t.text ≠ ")" ∧
      (opensBrace t ∧ closer = closeBrace ∨ !t.isBrace ∧ closer ≠ closeBrace) := by
  rw [closerOf?] at opens
  split at opens
  next text =>
    obtain rfl := Option.some.inj opens
    refine ⟨?_, .inr ?_⟩ <;> simp [text, isBrace, opensBrace, closesBrace, openBrace, closeBrace]
  · split at opens
    next text =>
      obtain rfl := Option.some.inj opens
      rcases text with text | text <;>
        exact ⟨by simp [text], .inr
          (by simp [text, isBrace, opensBrace, closesBrace, openBrace, closeBrace])⟩
    · split at opens
      next text =>
        obtain rfl := Option.some.inj opens
        exact ⟨by simp [text, openBrace], .inl ⟨by simp [opensBrace, text], rfl⟩⟩
      · cases opens

/-! ## Tokens that declare nothing -/

theorem asideFrom_append {a b : List Token} {depth : Nat} (aside : asideFrom depth a) :
    asideFrom depth (a ++ b) = asideFrom 0 b := by
  induction a generalizing depth with
  | nil =>
      obtain rfl : depth = 0 := by simpa [asideFrom] using aside
      rfl
  | cons t a ih =>
      rw [asideFrom] at aside
      rw [List.cons_append, asideFrom]
      split at aside
      next opens => rw [if_pos opens, ih aside]
      next opens =>
        rw [if_neg opens]
        split at aside
        next closes =>
          obtain ⟨deep, aside⟩ := Bool.and_eq_true_iff.mp aside
          rw [if_pos closes, deep, Bool.true_and, ih aside]
        next closes =>
          obtain ⟨plain, aside⟩ := Bool.and_eq_true_iff.mp aside
          rw [if_neg closes, plain, Bool.true_and, ih aside]

theorem isAside_append {a b : List Token} (ha : isAside a) (hb : isAside b) : isAside (a ++ b) := by
  rw [isAside, asideFrom_append ha]
  exact hb

theorem asideFrom_cons_plain {t : Token} (depth : Nat) (rest : List Token) (brace : !t.isBrace)
    (kind : t.kind ≠ .function) : asideFrom depth (t :: rest) = asideFrom depth rest := by
  have noBrace : opensBrace t = false ∧ closesBrace t = false := by simpa [isBrace] using brace
  have declares : declaresAt depth t = false := by simp [declaresAt, kind]
  rw [asideFrom, noBrace.1, noBrace.2, declares]
  rfl

theorem isAside_of_plain {ts : List Token}
    (plain : ∀ t ∈ ts, !t.isBrace ∧ t.kind ≠ .function) : isAside ts := by
  induction ts with
  | nil => rfl
  | cons t ts ih =>
      obtain ⟨⟨brace, kind⟩, later⟩ := List.forall_mem_cons.mp plain
      rw [isAside, asideFrom_cons_plain 0 ts brace kind]
      exact ih later

/-- Balanced braces inside a block leave it open. -/
theorem asideFrom_balanced {ts : List Token} {depth : Nat} (k : Nat) (rest : List Token)
    (balanced : balancedFrom opensBrace closesBrace depth ts) :
    asideFrom (depth + (k + 1)) (ts ++ rest) = asideFrom (k + 1) rest := by
  refine scan_balanced asideFrom 1 ?_ ?_ ?_ rest (by omega) balanced
  · intro depth t rest _ isOpen
    rw [asideFrom, if_pos isOpen]
  · intro depth t rest _ notOpen isClose
    rw [asideFrom, notOpen, if_neg Bool.false_ne_true, if_pos isClose, Nat.add_sub_cancel]
    simp
  · intro depth t rest deep notOpen notClose
    have positive : (depth == 0) = false := by simpa using Nat.ne_of_gt deep
    rw [asideFrom, notOpen, notClose, declaresAt, positive]
    rfl

/-- Nested tokens without a function keyword declare nothing. -/
theorem asideFrom_of_nested {ts : List Token} {expected : List String}
    (nested : nestedFrom expected ts) (none : ∀ t ∈ ts, t.kind ≠ .function) :
    asideFrom (expected.count closeBrace) ts := by
  induction ts generalizing expected with
  | nil =>
      obtain rfl : expected = [] := by simpa [nestedFrom] using nested
      rfl
  | cons t ts ih =>
      obtain ⟨kind, later⟩ := List.forall_mem_cons.mp none
      obtain ⟨closer, opens, _, nested⟩ | ⟨more, rfl, _, opens, nested⟩ | ⟨_, brace, _, nested⟩ :=
        nestedFrom_cons nested
      · have aside := ih nested later
        obtain ⟨_, ⟨isOpen, rfl⟩ | ⟨brace, other⟩⟩ := closerOf?_eq_some opens
        · rw [List.count_cons_self] at aside
          rw [asideFrom, if_pos isOpen]
          exact aside
        · rw [List.count_cons_of_ne other] at aside
          rw [asideFrom_cons_plain _ ts brace kind]
          exact aside
      · have aside := ih nested later
        have notOpen : opensBrace t = false := by
          rw [opensBrace, beq_eq_false_iff_ne]
          intro text
          simp [closerOf?, text, openBrace] at opens
        by_cases isClose : t.text = closeBrace
        · have closes : closesBrace t := by simpa [closesBrace] using isClose
          rw [isClose, List.count_cons_self, asideFrom, notOpen, if_neg Bool.false_ne_true,
            if_pos closes, Nat.add_sub_cancel]
          simpa using aside
        · have brace : !t.isBrace := by simp [isBrace, notOpen, closesBrace, isClose]
          rw [List.count_cons_of_ne isClose, asideFrom_cons_plain _ ts brace kind]
          exact aside
      · rw [asideFrom_cons_plain _ ts brace kind]
        exact ih nested later

/-! ## Where a nested list ends -/

theorem rest_groups_cons {t : Token} {depth : Int} (rest : List Token)
    (inside : depth = 0 → t.text ≠ ")" ∧ ¬ t.CutsOffList) :
    (groups depth (t :: rest)).rest = (groups (depth + t.depthChange) rest).rest := by
  have closing : ¬ (depth = 0 ∧ t.text = ")") := fun h => (inside h.1).1 h.2
  have ending : ¬ (depth = 0 ∧ (t.text = openBrace ∨ t.text = ";")) :=
    fun h => (inside h.1).2 h.2
  rw [groups, if_neg closing, if_neg ending]
  split
  next comma => rw [comma.1, depthChange_comma comma.2, Int.zero_add]
  · rfl

theorem rest_groups_cutsOff {t : Token} (rest : List Token) (ends : t.CutsOffList) :
    (groups 0 (t :: rest)).rest = t :: rest := by
  have closing : ¬ ((0 : Int) = 0 ∧ t.text = ")") := by
    rintro ⟨_, text⟩
    rcases ends with opens | semicolon
    · exact absurd (text.symm.trans opens) (by decide)
    · exact absurd (text.symm.trans semicolon) (by decide)
  rw [groups, if_neg closing, if_pos ⟨rfl, ends⟩]

/-- A nested list ends at its closing parenthesis, or is cut off outside of its inner brackets. -/
theorem rest_groups_nested {ts : List Token} {expected : List String} {closing : Token}
    (tail : List Token) (nested : nestedFrom expected ts) (closes : closing.text = ")") :
    (groups expected.length (ts ++ closing :: tail)).rest = tail ∨
      ∃ t more, t :: more <:+ ts ∧ t.CutsOffList ∧ isNested (t :: more) ∧
        (groups expected.length (ts ++ closing :: tail)).rest = t :: more ++ closing :: tail := by
  induction ts generalizing expected with
  | nil =>
      obtain rfl : expected = [] := by simpa [nestedFrom] using nested
      left
      rw [List.nil_append, List.length_nil, groups, if_pos ⟨rfl, closes⟩]
  | cons t ts ih =>
      by_cases stops : expected = [] ∧ t.CutsOffList
      · obtain ⟨rfl, ends⟩ := stops
        exact .inr ⟨t, ts, List.suffix_rfl, ends, nested, rest_groups_cutsOff _ ends⟩
      · have cut (empty : expected = []) : ¬ t.CutsOffList := fun ends => stops ⟨empty, ends⟩
        -- Whatever the token does to the open brackets, the rest of the list is read after it.
        obtain ⟨later, nested, step⟩ : ∃ later, nestedFrom later ts ∧
            (groups expected.length (t :: (ts ++ closing :: tail))).rest =
              (groups later.length (ts ++ closing :: tail)).rest := by
          obtain ⟨closer, opens, change, nested⟩ | ⟨more, rfl, change, _, nested⟩ |
            ⟨change, _, plain, nested⟩ := nestedFrom_cons nested
          · refine ⟨closer :: expected, nested, ?_⟩
            rw [rest_groups_cons _ fun zero => ⟨(closerOf?_eq_some opens).1,
              cut (List.length_eq_zero_iff.mp (by omega))⟩, change, List.length_cons]
            rfl
          · refine ⟨more, nested, ?_⟩
            rw [rest_groups_cons _ fun zero => absurd zero (by simp; omega), change,
              List.length_cons]
            congr 2
            omega
          · refine ⟨expected, nested, ?_⟩
            rw [rest_groups_cons _ fun zero => ⟨plain,
              cut (List.length_eq_zero_iff.mp (by omega))⟩, change, Int.add_zero]
        rw [List.cons_append, step]
        obtain closed | ⟨u, more, suffix, ends, nested, left⟩ := ih nested
        · exact .inl closed
        · exact .inr ⟨u, more, suffix.trans (List.suffix_cons t ts), ends, nested, left⟩

end Token

end RenderTrace
