import RenderTrace.Proofs.Argument.Split

/-!
# Literal arguments

Two readings of quotes meet here. For the scan that splits arguments a backslash inside
quotes hides the next character, so a quoted text ends at the first quote of its kind
that is not hidden. The test for literals knows no backslash: it looks at the quotes at
both ends and for their kind between. The two agree on every text without a backslash,
and it is said exactly where they differ.
-/

namespace RenderTrace.Argument
open Text

/-- One quoted text: it begins with a quote, which stays open up to the last character and is closed
by it. -/
structure IsQuoted (cs : List Char) : Prop where
  opens : cs.head?.any isQuote
  staysOpen : ∀ k < cs.length, 0 < k → quotation (cs.take k) ≠ none
  closes : quotation cs = none

instance (cs : List Char) : Decidable (IsQuoted cs) :=
  decidable_of_iff ((cs.head?.any isQuote) ∧
      (∀ k < cs.length, 0 < k → quotation (cs.take k) ≠ none) ∧ quotation cs = none)
    ⟨fun ⟨opens, staysOpen, closes⟩ => ⟨opens, staysOpen, closes⟩,
      fun ⟨opens, staysOpen, closes⟩ => ⟨opens, staysOpen, closes⟩⟩

/-- What can stand between two quotes of a kind: no quote of that kind and no backslash, except for a
backslash and the character it hides. -/
inductive QuotedBody (q : Char) : List Char → Prop
  | nil : QuotedBody q []
  | plain {c : Char} {cs : List Char} :
      c ≠ q → c ≠ '\\' → QuotedBody q cs → QuotedBody q (c :: cs)
  | hidden {c : Char} {cs : List Char} : QuotedBody q cs → QuotedBody q ('\\' :: c :: cs)

variable {q c : Char} {cs body : List Char}

/-! ## Between the quotes -/

theorem quotation_cons (quote : isQuote q) :
    quotation (q :: cs) = cs.foldl Quotation.next (some ⟨q, false⟩) := by
  rw [quotation, List.foldl_cons, Quotation.next, if_pos quote]

theorem next_plain (other : c ≠ q) (shown : c ≠ '\\') :
    Quotation.next (some ⟨q, false⟩) c = some ⟨q, false⟩ := by
  rw [Quotation.next, if_neg shown, if_neg other]

theorem next_backslash : Quotation.next (some ⟨q, false⟩) '\\' = some ⟨q, true⟩ := by
  rw [Quotation.next, if_pos rfl]

theorem ne_backslash (quote : isQuote q) : q ≠ '\\' := by
  rintro rfl
  exact absurd quote (by decide)

theorem next_quote (quote : isQuote q) : Quotation.next (some ⟨q, false⟩) q = none := by
  rw [Quotation.next, if_neg (ne_backslash quote), if_pos rfl]

namespace QuotedBody

/-- The quote is as open behind the body as before it. -/
theorem foldl_next (inside : QuotedBody q body) :
    body.foldl Quotation.next (some ⟨q, false⟩) = some ⟨q, false⟩ := by
  induction inside with
  | nil => rfl
  | plain other shown _ ih => rw [List.foldl_cons, next_plain other shown, ih]
  | hidden _ ih => rw [List.foldl_cons, next_backslash, List.foldl_cons, Quotation.next, ih]

/-- The quote is open everywhere in the body. -/
theorem foldl_next_take (inside : QuotedBody q body) (k : Nat) :
    (body.take k).foldl Quotation.next (some ⟨q, false⟩) ≠ none := by
  induction inside generalizing k with
  | nil => simp
  | plain other shown _ ih =>
      cases k with
      | zero => simp
      | succ k =>
          rw [List.take_succ_cons, List.foldl_cons, next_plain other shown]
          exact ih k
  | hidden _ ih =>
      match k with
      | 0 => simp
      | 1 => simp [next_backslash]
      | k + 2 =>
          rw [List.take_succ_cons, List.take_succ_cons, List.foldl_cons, next_backslash,
            List.foldl_cons, Quotation.next]
          exact ih k

/-- A backslash at the end of a body hides the character before it or is hidden itself, so one more
is no part of a body. -/
theorem not_append_backslash (inside : QuotedBody q body) : ¬ QuotedBody q (body ++ ['\\']) := by
  intro longer
  have hides := longer.foldl_next
  rw [List.foldl_append, inside.foldl_next, List.foldl_cons, next_backslash] at hides
  exact absurd hides (by simp)

/-- What follows an open quote begins with a body, which goes on up to the end, up to a backslash at
the end, or up to the quote that closes it. -/
theorem exists_append (q : Char) (cs : List Char) :
    ∃ body rest, QuotedBody q body ∧ cs = body ++ rest ∧
      (rest = [] ∨ rest = ['\\'] ∨ ∃ more, rest = q :: more) := by
  -- The induction is on the length, since a backslash takes two characters.
  induction length : cs.length using Nat.strongRecOn generalizing cs with
  | ind size ih =>
      match cs with
      | [] => exact ⟨[], [], .nil, rfl, .inl rfl⟩
      | c :: cs =>
          by_cases closes : c = q
          · exact ⟨[], c :: cs, .nil, rfl, .inr (.inr ⟨cs, closes ▸ rfl⟩)⟩
          by_cases backslash : c = '\\'
          · subst backslash
            match cs with
            | [] => exact ⟨[], ['\\'], .nil, rfl, .inr (.inl rfl)⟩
            | d :: cs =>
                obtain ⟨body, rest, inside, rfl, stop⟩ :=
                  ih cs.length (by rw [← length, List.length_cons, List.length_cons]; omega) cs rfl
                exact ⟨'\\' :: d :: body, rest, inside.hidden, rfl, stop⟩
          · obtain ⟨body, rest, inside, rfl, stop⟩ :=
              ih cs.length (by rw [← length]; simp) cs rfl
            exact ⟨c :: body, rest, inside.plain closes backslash, rfl, stop⟩

end QuotedBody

/-! ## Quoted texts -/

theorem IsQuoted.of_body (quote : isQuote q) (inside : QuotedBody q body) :
    IsQuoted (q :: (body ++ [q])) where
  opens := quote
  staysOpen := by
    intro k below positive
    cases k with
    | zero => exact absurd positive (Nat.lt_irrefl 0)
    | succ k =>
        have within : k ≤ body.length := by simpa [Nat.lt_succ_iff] using below
        rw [List.take_succ_cons, quotation_cons quote, List.take_append_of_le_length within]
        exact inside.foldl_next_take k
  closes := by
    rw [quotation_cons quote, List.foldl_append, inside.foldl_next, List.foldl_cons,
      next_quote quote, List.foldl_nil]

/-- A quoted text is a body in quotes of one kind. -/
theorem isQuoted_iff :
    IsQuoted cs ↔ ∃ q body, isQuote q ∧ QuotedBody q body ∧ cs = q :: (body ++ [q]) := by
  constructor
  · rintro ⟨opens, staysOpen, closes⟩
    cases cs with
    | nil => exact absurd opens Bool.false_ne_true
    | cons q cs =>
        have quote : isQuote q := opens
        obtain ⟨body, rest, inside, rfl, stop⟩ := QuotedBody.exists_append q cs
        rw [quotation_cons quote, List.foldl_append, inside.foldl_next] at closes
        obtain rfl | rfl | ⟨more, rfl⟩ := stop
        · cases closes
        · rw [List.foldl_cons, next_backslash] at closes
          cases closes
        · refine ⟨q, body, quote, inside, ?_⟩
          cases more with
          | nil => rfl
          | cons c more =>
              -- The quote behind the body would close the text before its end.
              have whole : q :: (body ++ q :: c :: more) = q :: (body ++ [q]) ++ c :: more := by simp
              rw [whole] at staysOpen
              have open? := staysOpen (q :: (body ++ [q])).length (by simp) (by simp)
              rw [List.take_left] at open?
              exact absurd (IsQuoted.of_body quote inside).closes open?
  · rintro ⟨q, body, quote, inside, rfl⟩
    exact .of_body quote inside

theorem isQuoted_cons_iff (quote : isQuote q) : IsQuoted (q :: (cs ++ [q])) ↔ QuotedBody q cs := by
  constructor
  · intro quoted
    obtain ⟨p, body, -, inside, same⟩ := isQuoted_iff.mp quoted
    obtain ⟨rfl, same⟩ := List.cons.inj same
    rwa [List.append_cancel_right same]
  · exact .of_body quote

/-- Nothing cuts a quoted text. -/
theorem IsQuoted.isWhole (quoted : IsQuoted cs) : IsWhole cs := by
  rintro front c back rfl
  cases front with
  | nil =>
      have quote : isQuote c := quoted.opens
      have plain : c ≠ ',' ∧ ¬ isCloser c := by
        simp only [isQuote, Bool.or_eq_true, beq_iff_eq] at quote
        rcases quote with rfl | rfl <;> decide
      exact ⟨fun separates => plain.1 separates.1, fun unmatched => plain.2 unmatched.1⟩
  | cons d front =>
      have within := quoted.staysOpen (d :: front).length (by simp) (by simp)
      rw [List.take_left] at within
      exact ⟨fun separates => within separates.2.1, fun unmatched => within unmatched.2.1⟩

/-! ## The test for literals -/

theorem isLiteral_iff_exists : isLiteral cs ↔
    ∃ q inner, isQuote q ∧ q ∉ inner ∧ trimChars cs = q :: (inner ++ [q]) := by
  rw [isLiteral]
  constructor
  · intro literal
    split at literal
    next => exact absurd literal Bool.false_ne_true
    next q rest text =>
      simp only [Bool.and_eq_true, beq_iff_eq, Bool.not_eq_true', List.contains_eq_mem,
        decide_eq_false_iff_not] at literal
      obtain ⟨⟨quote, last⟩, absent⟩ := literal
      obtain ⟨inner, rfl⟩ := List.getLast?_eq_some_iff.mp last
      rw [List.dropLast_concat] at absent
      exact ⟨q, inner, quote, absent, text⟩
  · rintro ⟨q, inner, quote, absent, text⟩
    simp [text, quote, absent]

theorem not_mem_of_isLiteral (literal : isLiteral cs) (text : trimChars cs = q :: (body ++ [q])) :
    q ∉ body := by
  obtain ⟨p, inner, -, absent, same⟩ := isLiteral_iff_exists.mp literal
  obtain ⟨rfl, same⟩ := List.cons.inj (text.symm.trans same)
  rwa [List.append_cancel_right same]

/-- A literal is a body without its quote in it, between two quotes or before a hidden one. -/
theorem isLiteral_iff_body : isLiteral cs ↔
    ∃ q body, isQuote q ∧ QuotedBody q body ∧ q ∉ body ∧
      (trimChars cs = q :: (body ++ [q]) ∨ trimChars cs = q :: (body ++ ['\\', q])) := by
  rw [isLiteral_iff_exists]
  constructor
  · rintro ⟨q, inner, quote, absent, text⟩
    obtain ⟨body, rest, inside, rfl, stop⟩ := QuotedBody.exists_append q inner
    rw [List.mem_append, not_or] at absent
    refine ⟨q, body, quote, inside, absent.1, ?_⟩
    obtain rfl | rfl | ⟨more, rfl⟩ := stop
    · exact .inl (by rw [text, List.append_nil])
    · exact .inr (by rw [text, List.append_assoc]; rfl)
    · exact absurd List.mem_cons_self absent.2
  · rintro ⟨q, body, quote, -, absent, text | text⟩
    · exact ⟨q, body, quote, absent, text⟩
    · refine ⟨q, body ++ ['\\'], quote, ?_, by rw [text, List.append_assoc]; rfl⟩
      simpa [absent] using ne_backslash quote

/-- The text has a quote at both ends, and a backslash hides one of its kind: one between them in a
quoted text, or the last one, so that the text never ends. -/
def HidesQuote (cs : List Char) : Prop :=
  ∃ q body, isQuote q ∧ QuotedBody q body ∧
    (q ∈ body ∧ cs = q :: (body ++ [q]) ∨ q ∉ body ∧ cs = q :: (body ++ ['\\', q]))

/-- An argument is taken for a literal when, without the blanks around it, it is a quoted text in
which no quote of its kind is hidden, and also when it would be one if its last quote were not hidden.
So literals and quoted texts differ exactly by those that hide a quote, while each quoted text is one
argument for the scan that splits. -/
theorem isLiteral_iff_isQuoted_iff (cs : List Char) :
    (isLiteral cs ↔ ∃ q body, isQuote q ∧ QuotedBody q body ∧ q ∉ body ∧
      (trimChars cs = q :: (body ++ [q]) ∨ trimChars cs = q :: (body ++ ['\\', q]))) ∧
    ((isLiteral cs ↔ IsQuoted (trimChars cs)) ↔ ¬ HidesQuote (trimChars cs)) ∧
    (IsQuoted (trimChars cs) → split (trimChars cs) = [trimChars cs]) := by
  refine ⟨isLiteral_iff_body, ?_, fun quoted => split_eq_singleton_iff.mpr quoted.isWhole⟩
  constructor
  · rintro agree ⟨q, body, quote, inside, ⟨mem, text⟩ | ⟨absent, text⟩⟩
    · have literal : isLiteral cs := agree.mpr (text ▸ .of_body quote inside)
      exact absurd mem (not_mem_of_isLiteral literal text)
    · have quoted : IsQuoted (q :: ((body ++ ['\\']) ++ [q])) := by
        rw [List.append_assoc, List.singleton_append, ← text]
        exact agree.mp (isLiteral_iff_body.mpr ⟨q, body, quote, inside, absent, .inr text⟩)
      exact absurd ((isQuoted_cons_iff quote).mp quoted) inside.not_append_backslash
  · intro shown
    constructor
    · intro literal
      obtain ⟨q, body, quote, inside, absent, text | text⟩ := isLiteral_iff_body.mp literal
      · exact text ▸ .of_body quote inside
      · exact absurd ⟨q, body, quote, inside, .inr ⟨absent, text⟩⟩ shown
    · intro quoted
      obtain ⟨q, body, quote, inside, text⟩ := isQuoted_iff.mp quoted
      have absent : q ∉ body := fun mem => shown ⟨q, body, quote, inside, .inl ⟨mem, text⟩⟩
      exact isLiteral_iff_exists.mpr ⟨q, body, quote, absent, text⟩

/-- A quoted text that holds a hidden quote of its kind is no literal, and a text that never ends
because its last quote is hidden is one. -/
theorem isLiteral_hiddenQuote :
    ¬ (isLiteral "'it\\'s'".toList ↔ IsQuoted (trimChars "'it\\'s'".toList)) ∧
      ¬ (isLiteral "'a\\'".toList ↔ IsQuoted (trimChars "'a\\'".toList)) := by
  decide

end RenderTrace.Argument
