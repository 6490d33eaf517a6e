import RenderTrace.Proofs.Argument.Nesting

/-!
# Splitting at the top level

The arguments of a call are what stands between the commas outside quotes and brackets,
up to the first closing bracket that nothing opened. Joined by commas they give back the
text up to there, and what was joined is split again.

## Implementation notes

The state of a scan that stays inside one argument says what is open at the end of the
text. So a scan is cut exactly where it is back in the state in which it started, and a
text is cut into arguments in one way only.
-/

namespace RenderTrace.Argument

namespace State

/-- The state in which this much is open. -/
def within (open? : Option Quotation) (depth : Nat) : State :=
  ⟨depth, open?.map (·.quote), open?.any (·.hides)⟩

theorem within_eq_start_iff {open? : Option Quotation} {depth : Nat} :
    within open? depth = start ↔ open? = none ∧ depth = 0 := by
  constructor
  · intro same
    obtain ⟨zero, quote, -⟩ := State.mk.inj same
    exact ⟨Option.map_eq_none_iff.mp quote, zero⟩
  · rintro ⟨rfl, rfl⟩
    rfl

theorem role_quoted (q : Quotation) (depth : Nat) (c : Char) :
    (within (some q) depth).role c = .belongs (within (Quotation.next (some q) c) depth) := by
  obtain ⟨quote, hides⟩ := q
  cases hides with
  | true => rfl
  | false =>
      by_cases backslash : c = '\\'
      · simp [within, role, Quotation.next, backslash]
      · by_cases closes : c = quote
        · simp [within, role, Quotation.next, closes, closes ▸ backslash]
        · simp [within, role, Quotation.next, backslash, closes]

/-- Outside quotes a character ends the call, separates two arguments or counts as a bracket. -/
theorem role_plain (depth : Nat) (c : Char) :
    (isCloser c ∧ depth = 0 ∧ (within none depth).role c = .ends) ∨
    (c = ',' ∧ depth = 0 ∧ (within none depth).role c = .separates) ∨
    ∃ later : Nat, (later : Int) = depth + change c ∧
      (within none depth).role c = .belongs (within (Quotation.next none c) later) := by
  by_cases quote : Text.isQuote c
  · have plain : isOpener c = false ∧ isCloser c = false := by
      simp only [Text.isQuote, Bool.or_eq_true, beq_iff_eq] at quote
      rcases quote with rfl | rfl <;> decide
    refine .inr (.inr ⟨depth, ?_, ?_⟩)
    · simp [change, plain]
    · simp [within, role, quote, Quotation.next]
  by_cases opens : isOpener c
  · refine .inr (.inr ⟨depth + 1, ?_, ?_⟩)
    · simp [change, opens]
    · simp [within, role, quote, opens, Quotation.next]
  by_cases closes : isCloser c
  · cases depth with
    | zero => exact .inl ⟨closes, rfl, by simp [within, role, quote, opens, closes]⟩
    | succ depth =>
        refine .inr (.inr ⟨depth, ?_, ?_⟩)
        · rw [change, if_neg opens, if_pos closes]
          omega
        · simp [within, role, quote, opens, closes, Quotation.next]
  by_cases comma : c = ',' ∧ depth = 0
  · obtain ⟨rfl, rfl⟩ := comma
    exact .inr (.inl ⟨rfl, rfl, rfl⟩)
  · refine .inr (.inr ⟨depth, ?_, ?_⟩)
    · simp [change, opens, closes]
    · simp only [within, role, quote, opens, closes, comma, Quotation.next]
      simp

variable {s t : State} {a b cs : List Char} {c : Char}

/-- The state after characters that all belong to the argument. -/
def run? (s : State) : List Char → Option State
  | [] => some s
  | c :: rest =>
    match s.role c with
    | .belongs next => next.run? rest
    | _ => none

theorem run?_cons_eq_some_iff :
    s.run? (c :: cs) = some t ↔ ∃ next, s.role c = .belongs next ∧ next.run? cs = some t := by
  rw [run?]
  cases role : s.role c <;> simp

theorem run?_append : s.run? (a ++ b) = (s.run? a).bind (·.run? b) := by
  induction a generalizing s with
  | nil => rfl
  | cons c a ih =>
      rw [List.cons_append, run?, run?]
      cases s.role c with
      | belongs next => exact ih
      | ends => rfl
      | separates => rfl

/-- A scan inside one argument keeps count of what is open. -/
theorem run?_within {open? : Option Quotation} {depth : Nat}
    (run : (within open? depth).run? cs = some t) :
    ∃ later : Nat, t = within (cs.foldl Quotation.next open?) later ∧
      (later : Int) = depth + (changesFrom open? cs).sum := by
  induction cs generalizing open? depth with
  | nil =>
      cases run
      exact ⟨depth, rfl, by simp [changesFrom]⟩
  | cons c cs ih =>
      obtain ⟨next, role, run⟩ := run?_cons_eq_some_iff.mp run
      rw [List.foldl_cons, changesFrom, List.sum_cons]
      cases open? with
      | some q =>
          cases (role_quoted q depth c).symm.trans role
          obtain ⟨later, state, count⟩ := ih run
          exact ⟨later, state, by rw [if_neg (Option.some_ne_none q), Int.zero_add, count]⟩
      | none =>
          obtain ⟨-, -, ends⟩ | ⟨-, -, separates⟩ | ⟨deeper, step, belongs⟩ := role_plain depth c
          · cases ends.symm.trans role
          · cases separates.symm.trans role
          · cases belongs.symm.trans role
            obtain ⟨later, state, count⟩ := ih run
            exact ⟨later, state, by rw [if_pos rfl]; omega⟩

theorem run?_start (run : start.run? cs = some t) :
    ∃ later : Nat, t = within (quotation cs) later ∧ (later : Int) = Argument.depth cs := by
  obtain ⟨later, state, count⟩ : ∃ later : Nat, t = within (quotation cs) later ∧
      (later : Int) = (0 : Nat) + (changes cs).sum := run?_within run
  exact ⟨later, state, by rw [count, Int.natCast_zero, Int.zero_add, Argument.depth]⟩

/-- A scan inside one argument is back in its first state where nothing is open. -/
theorem isClosed_iff_of_run? (run : start.run? cs = some t) : IsClosed cs ↔ t = start := by
  obtain ⟨later, rfl, count⟩ := run?_start run
  rw [within_eq_start_iff, IsClosed, ← count, Int.natCast_eq_zero]

theorem isMatched_of_run? (run : start.run? cs = some t) : IsMatched cs := by
  intro k
  rw [← List.take_append_drop k cs, run?_append] at run
  obtain ⟨s, part, -⟩ := Option.bind_eq_some_iff.mp run
  obtain ⟨later, -, count⟩ := run?_start part
  omega

/-- What does not belong to the argument finds nothing open. -/
theorem role_of_run? (run : start.run? cs = some t) :
    (IsClosed cs ∧ isCloser c ∧ t.role c = .ends) ∨ (IsSeparator cs c ∧ t.role c = .separates) ∨
      ∃ next, t.role c = .belongs next := by
  have closed := isClosed_iff_of_run? run
  obtain ⟨later, rfl, -⟩ := run?_start run
  rw [within_eq_start_iff] at closed
  cases quoted : quotation cs with
  | some q => exact .inr (.inr ⟨_, role_quoted q later c⟩)
  | none =>
      obtain ⟨closes, zero, ends⟩ | ⟨comma, zero, separates⟩ | ⟨deeper, -, belongs⟩ :=
        role_plain later c
      · exact .inl ⟨closed.mpr ⟨quoted, zero⟩, closes, ends⟩
      · exact .inr (.inl ⟨⟨comma, closed.mpr ⟨quoted, zero⟩⟩, separates⟩)
      · exact .inr (.inr ⟨_, belongs⟩)

theorem role_start_of_isCloser (closes : isCloser c) : start.role c = .ends := by
  obtain ⟨-, -, ends⟩ | ⟨rfl, -, -⟩ | ⟨deeper, count, -⟩ := role_plain 0 c
  · exact ends
  · exact absurd closes (by decide)
  · rw [change_of_isCloser closes] at count
    omega

end State

open State

variable {cs arg rest : List Char} {args : List (List Char)} {s t : State} {c : Char}

/-! ## One argument -/

theorem splitFrom_append (run : s.run? arg = some t) (rest : List Char) :
    splitFrom s (arg ++ rest) = (arg ++ (splitFrom t rest).1, (splitFrom t rest).2) := by
  induction arg generalizing s with
  | nil =>
      cases run
      rfl
  | cons c arg ih =>
      obtain ⟨next, role, run⟩ := run?_cons_eq_some_iff.mp run
      rw [List.cons_append, splitFrom, role]
      simp only [ih run]
      rfl

/-- Every text begins with a part that belongs to one argument, up to the first character that does
not. -/
theorem exists_run? (s : State) (cs : List Char) :
    ∃ arg rest t, cs = arg ++ rest ∧ s.run? arg = some t ∧
      (rest = [] ∨ ∃ c more, rest = c :: more ∧ ∀ next, t.role c ≠ .belongs next) := by
  induction cs generalizing s with
  | nil => exact ⟨[], [], s, rfl, rfl, .inl rfl⟩
  | cons c cs ih =>
      by_cases belongs : ∃ next, s.role c = .belongs next
      · obtain ⟨next, role⟩ := belongs
        obtain ⟨arg, rest, t, whole, run, stop⟩ := ih next
        exact ⟨c :: arg, rest, t, congrArg (c :: ·) whole,
          run?_cons_eq_some_iff.mpr ⟨next, role, run⟩, stop⟩
      · exact ⟨[], c :: cs, s, rfl, rfl, .inr ⟨c, cs, rfl, fun next role => belongs ⟨next, role⟩⟩⟩

/-- A scan runs through a text exactly when nothing in it cuts it. -/
theorem isWhole_iff_run? : IsWhole cs ↔ ∃ t, start.run? cs = some t := by
  constructor
  · intro uncut
    obtain ⟨front, rest, t, rfl, run, rfl | ⟨c, more, rfl, stop⟩⟩ := exists_run? start cs
    · exact ⟨t, by rwa [List.append_nil]⟩
    · have ⟨noComma, noCloser⟩ := uncut front c more rfl
      obtain ⟨closed, closes, -⟩ | ⟨separates, -⟩ | ⟨next, belongs⟩ := role_of_run? (c := c) run
      · exact absurd ((isMatched_of_run? run).isUnmatched closed closes) noCloser
      · exact absurd separates noComma
      · exact absurd belongs (stop next)
  · rintro ⟨t, run⟩ front c back rfl
    refine ⟨?_, (isMatched_of_run? run).not_isUnmatched⟩
    rintro ⟨rfl, closed⟩
    rw [run?_append] at run
    obtain ⟨s, before, run⟩ := Option.bind_eq_some_iff.mp run
    obtain rfl := (isClosed_iff_of_run? before).mp closed
    exact absurd run nofun

theorem IsWhole.isMatched (whole : IsWhole cs) : IsMatched cs :=
  (isWhole_iff_run?.mp whole).elim fun _ run => isMatched_of_run? run

theorem IsSelfContained.run?_eq (own : IsSelfContained arg) : start.run? arg = some start := by
  obtain ⟨t, run⟩ := isWhole_iff_run?.mp own.2
  rw [run, (isClosed_iff_of_run? run).mp own.1]

/-- A comma or a closing bracket behind a self-contained argument ends it. -/
theorem first_append (own : IsSelfContained arg) (stops : c = ',' ∨ isCloser c) :
    first (arg ++ c :: rest) = arg := by
  rw [first, splitFrom_append own.run?_eq]
  obtain rfl | closes := stops
  · exact List.append_nil arg
  · simp [splitFrom, role_start_of_isCloser closes]

/-- A text is its own only argument exactly when nothing in it cuts it. -/
theorem split_eq_singleton_iff : split arg = [arg] ↔ IsWhole arg := by
  rw [isWhole_iff_run?]
  constructor
  · intro same
    obtain ⟨front, rest, t, whole, run, stop⟩ := exists_run? start arg
    have nothing : (splitFrom t rest).1 = [] := by
      obtain rfl | ⟨c, more, rfl, stop⟩ := stop
      · rfl
      · rw [splitFrom]
        cases role : t.role c with
        | belongs next => exact absurd role (stop next)
        | ends => rfl
        | separates => rfl
    have first : front ++ (splitFrom t rest).1 = arg := by
      rw [split, whole, splitFrom_append run, ← whole] at same
      exact (List.cons_eq_cons.mp same).1
    rw [nothing, List.append_nil] at first
    exact ⟨t, first ▸ run⟩
  · rintro ⟨t, run⟩
    have whole := splitFrom_append run []
    rw [List.append_nil] at whole
    rw [split, whole]
    simp [splitFrom]

instance (cs : List Char) : Decidable (IsWhole cs) :=
  decidable_of_iff _ split_eq_singleton_iff

instance (cs : List Char) : Decidable (IsSelfContained cs) :=
  inferInstanceAs (Decidable (_ ∧ _))

/-! ## All arguments -/

/-- A text cut at the commas that separate, up to its end or to a closing bracket that is
unmatched: the arguments and the rest. -/
inductive Cut : List Char → List (List Char) → List Char → Prop
  | last {arg : List Char} : IsWhole arg → Cut arg [arg] []
  | ends {arg : List Char} {c : Char} {more : List Char} :
      IsSelfContained arg → isCloser c → Cut (arg ++ c :: more) [arg] (c :: more)
  | comma {arg cs : List Char} {args : List (List Char)} {rest : List Char} :
      IsSelfContained arg → Cut cs args rest → Cut (arg ++ ',' :: cs) (arg :: args) rest

namespace Cut

theorem exists_of_text (cs : List Char) : ∃ args rest, Cut cs args rest := by
  -- The induction is on the length, since what is cut next is the text behind a comma.
  induction length : cs.length using Nat.strongRecOn generalizing cs with
  | ind size ih =>
      obtain ⟨arg, rest, t, rfl, run, rfl | ⟨c, more, rfl, stop⟩⟩ := exists_run? start cs
      · rw [List.append_nil]
        exact ⟨_, _, .last (isWhole_iff_run?.mpr ⟨t, run⟩)⟩
      · have whole := isWhole_iff_run?.mpr ⟨t, run⟩
        obtain ⟨closed, closes, -⟩ | ⟨⟨rfl, closed⟩, -⟩ | ⟨next, belongs⟩ :=
          role_of_run? (c := c) run
        · exact ⟨_, _, .ends ⟨closed, whole⟩ closes⟩
        · have shorter : more.length < size := by
            rw [← length, List.length_append, List.length_cons]
            omega
          obtain ⟨args, rest, cut⟩ := ih more.length shorter more rfl
          exact ⟨_, _, .comma ⟨closed, whole⟩ cut⟩
        · exact absurd belongs (stop next)

/-- The arguments found are those of the cut. -/
theorem split_eq (cut : Cut cs args rest) : split cs = args := by
  induction cut with
  | last whole => exact split_eq_singleton_iff.mpr whole
  | ends own closes =>
      rw [split, splitFrom_append own.run?_eq]
      simp [splitFrom, role_start_of_isCloser closes]
  | @comma arg cs args rest own _ ih =>
      have comma : splitFrom start (',' :: cs) = ([], split cs) := rfl
      rw [split, splitFrom_append own.run?_eq, comma, List.append_nil, ih]

theorem of_split (cs : List Char) : ∃ rest, Cut cs (split cs) rest := by
  obtain ⟨args, rest, cut⟩ := exists_of_text cs
  exact ⟨rest, cut.split_eq.symm ▸ cut⟩

theorem args_ne_nil (cut : Cut cs args rest) : args ≠ [] := by
  cases cut <;> exact List.cons_ne_nil _ _

theorem text_eq (cut : Cut cs args rest) : cs = [','].intercalate args ++ rest := by
  induction cut with
  | last => simp
  | ends => simp
  | comma _ cut ih =>
      rw [List.intercalate_cons_of_ne_nil cut.args_ne_nil, List.append_assoc, List.append_assoc,
        ← ih, List.singleton_append]

theorem isWhole (cut : Cut cs args rest) : ∀ arg ∈ args, IsWhole arg := by
  induction cut with
  | last whole => exact List.forall_mem_singleton.mpr whole
  | ends own => exact List.forall_mem_singleton.mpr own.2
  | comma own _ ih => exact List.forall_mem_cons.mpr ⟨own.2, ih⟩

theorem isClosed_of_mem_dropLast (cut : Cut cs args rest) : ∀ arg ∈ args.dropLast, IsClosed arg := by
  induction cut with
  | last => simp
  | ends => simp
  | comma own cut ih =>
      rw [List.dropLast_cons_of_ne_nil cut.args_ne_nil]
      exact List.forall_mem_cons.mpr ⟨own.1, ih⟩

theorem isMatched (cut : Cut cs args rest) : IsMatched ([','].intercalate args) := by
  induction cut with
  | last whole => simpa using whole.isMatched
  | ends own => simpa using own.2.isMatched
  | comma own cut ih =>
      rw [List.intercalate_cons_of_ne_nil cut.args_ne_nil, List.append_assoc]
      exact own.2.isMatched.append own.1 (isMatched_comma.append isClosed_comma ih)

/-- The rest begins where the arguments are closed. -/
theorem rest_eq (cut : Cut cs args rest) :
    rest = [] ∨ ∃ c more, rest = c :: more ∧ isCloser c ∧ IsClosed ([','].intercalate args) := by
  induction cut with
  | last => exact .inl rfl
  | @ends arg c more own closes => exact .inr ⟨c, more, rfl, closes, by simpa using own.1⟩
  | comma own cut ih =>
      refine ih.imp_right ?_
      rintro ⟨c, more, rfl, closes, later⟩
      refine ⟨c, more, rfl, closes, ?_⟩
      rw [List.intercalate_cons_of_ne_nil cut.args_ne_nil, List.append_assoc]
      exact own.1.append (isClosed_comma.append later)

/-- What was joined is cut again. -/
theorem of_intercalate (nonempty : args ≠ []) (own : ∀ arg ∈ args, IsSelfContained arg)
    (closes : isCloser c) (more : List Char) :
    Cut ([','].intercalate args ++ c :: more) args (c :: more) := by
  induction args with
  | nil => exact absurd rfl nonempty
  | cons arg args ih =>
      rw [List.forall_mem_cons] at own
      cases args with
      | nil => simpa using Cut.ends own.1 closes
      | cons next args =>
          rw [List.intercalate_cons_of_ne_nil (List.cons_ne_nil _ _), List.append_assoc,
            List.append_assoc, List.singleton_append]
          exact .comma own.1 (ih (List.cons_ne_nil _ _) own.2)

end Cut

/-- The arguments of a text are those of its only cut. -/
theorem split_eq_iff : split cs = args ↔ ∃ rest, Cut cs args rest := by
  constructor
  · rintro rfl
    exact Cut.of_split cs
  · rintro ⟨rest, cut⟩
    exact cut.split_eq

/-- The arguments of a text are its top-level parts. Joined by commas they are the text up to the
first closing bracket that is unmatched, or all of it; a comma outside quotes and brackets stands
between two arguments and in none of them; and what is written as a list of arguments is read as
that list. -/
theorem split_topLevel (cs : List Char) :
    split cs ≠ [] ∧
    (∃ rest, cs = [','].intercalate (split cs) ++ rest ∧
      (∀ front c back, [','].intercalate (split cs) = front ++ c :: back →
        ¬ IsUnmatched front c) ∧
      (rest = [] ∨
        ∃ c more, rest = c :: more ∧ IsUnmatched ([','].intercalate (split cs)) c)) ∧
    (∀ arg ∈ (split cs).dropLast, IsClosed arg) ∧
    (∀ arg ∈ split cs, split arg = [arg] ∧ IsWhole arg) ∧
    ∀ (args : List (List Char)) (rest : List Char), args ≠ [] →
      (∀ arg ∈ args, split arg = [arg] ∧ IsClosed arg) →
      split ([','].intercalate args ++ ')' :: rest) = args := by
  obtain ⟨rest, cut⟩ := Cut.of_split cs
  refine ⟨split_ne_nil cs, ⟨rest, cut.text_eq, ?_, ?_⟩, cut.isClosed_of_mem_dropLast, ?_, ?_⟩
  · rintro front c back joined
    have matched := cut.isMatched
    rw [joined] at matched
    exact matched.not_isUnmatched
  · refine cut.rest_eq.imp_right ?_
    rintro ⟨c, more, rfl, closes, closed⟩
    exact ⟨c, more, rfl, cut.isMatched.isUnmatched closed closes⟩
  · intro arg mem
    have whole := cut.isWhole arg mem
    exact ⟨split_eq_singleton_iff.mpr whole, whole⟩
  · intro args rest nonempty own
    have cut : Cut ([','].intercalate args ++ ')' :: rest) args (')' :: rest) :=
      .of_intercalate nonempty
        (fun arg mem => ⟨(own arg mem).2, split_eq_singleton_iff.mp (own arg mem).1⟩) rfl rest
    exact cut.split_eq

theorem split_topLevel_quotedComma :
    let quoted := [Text.singleQuote, 'a', ',', ')', '\\', Text.singleQuote, Text.singleQuote]
    let nested := ['[', 'b', ',', '(', 'c', ']', '}']
    split ([','].intercalate [quoted, nested] ++ ')' :: [',', 'd']) = [quoted, nested] :=
  (split_topLevel []).2.2.2.2 _ _ (by decide) (by decide)

end RenderTrace.Argument
