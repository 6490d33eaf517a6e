import RenderTrace.Proofs.Site
import RenderTrace.Proofs.Text.Line

/-!
# Occurrences of a marker

The search for a marker takes its first occurrence, then the first one behind the end of
that, and so on. This is said of positions alone, without the search, and determines
them. A marker without a line feed occurs in no two lines at once, so the occurrences in
a text are those in its first line and then those in the rest.
-/

namespace RenderTrace.Occurrence

/-- The leftmost occurrences of a marker that do not overlap, from a position of a text on: the first
one, and then those from its end on. -/
inductive Leftmost (marker text : List Char) : Nat → List Nat → Prop
  | none {start : Nat} :
      (∀ k, start ≤ k → ¬ marker <+: text.drop k) → Leftmost marker text start []
  | next {start k : Nat} {later : List Nat} :
      start ≤ k → marker <+: text.drop k → (∀ j, start ≤ j → j < k → ¬ marker <+: text.drop j) →
      Leftmost marker text (k + marker.length) later → Leftmost marker text start (k :: later)

variable {marker text : List Char} {start : Nat} {found others : List Nat}

/-! ## The search -/

theorem not_prefix_drop_of_first?_eq_none (absent : first? marker text = none) (k : Nat) :
    ¬ marker <+: text.drop k := by
  induction text generalizing k with
  | nil =>
      rw [first?] at absent
      split at absent
      next => cases absent
      next nonempty =>
        rw [List.drop_nil, List.prefix_nil]
        exact fun empty => nonempty (List.isEmpty_iff.mpr empty)
  | cons c text ih =>
      rw [first?] at absent
      split at absent
      next => cases absent
      next later =>
        cases k with
        | zero => exact fun here => later (List.isPrefixOf_iff_prefix.mpr here)
        | succ k => exact ih (Option.map_eq_none_iff.mp absent) k

theorem not_prefix_drop_of_first? {i : Nat} (here : first? marker text = some i) :
    ∀ k < i, ¬ marker <+: text.drop k := by
  induction text generalizing i with
  | nil =>
      intro k below
      rw [first?] at here
      split at here
      next =>
        cases here
        exact absurd below (Nat.not_lt_zero k)
      next => cases here
  | cons c text ih =>
      intro k below
      rw [first?] at here
      split at here
      next =>
        cases here
        exact absurd below (Nat.not_lt_zero k)
      next absent =>
        obtain ⟨j, later, rfl⟩ := Option.map_eq_some_iff.mp here
        cases k with
        | zero => exact fun occurs => absent (List.isPrefixOf_iff_prefix.mpr occurs)
        | succ k => exact ih later k (Nat.lt_of_succ_lt_succ below)

/-- What the search gives are the leftmost occurrences that do not overlap. -/
theorem leftmost_allFrom (nonempty : marker ≠ []) (text : List Char) (offset : Nat) :
    Leftmost marker text offset (allFrom marker offset (text.drop offset)) := by
  have place (k : Nat) (behind : offset ≤ k) : text.drop k = (text.drop offset).drop (k - offset) := by
    rw [List.drop_drop, Nat.add_sub_cancel' behind]
  -- The search holds what is left of the text; `place` turns its positions into those of the text.
  generalize rest : text.drop offset = cs at place
  fun_induction allFrom marker offset cs with
  | case1 offset cs absent =>
      apply Leftmost.none
      intro k behind
      rw [place k behind]
      exact not_prefix_drop_of_first?_eq_none absent _
  | case2 offset cs i here empty =>
      obtain empty | empty := empty
      · exact absurd (List.isEmpty_iff.mp empty) nonempty
      · rw [List.isEmpty_iff.mp empty, first?, if_neg (by simpa using nonempty)] at here
        cases here
  | case3 offset cs i here _ ih =>
      have shifted : text.drop (offset + i + marker.length) = cs.drop (i + marker.length) := by
        rw [← rest, List.drop_drop, Nat.add_assoc]
      apply Leftmost.next (Nat.le_add_right offset i)
      · rw [place _ (Nat.le_add_right offset i), Nat.add_sub_cancel_left]
        exact prefix_drop_of_first? here
      · intro j behind before
        rw [place j behind]
        exact not_prefix_drop_of_first? here _ (by omega)
      · apply ih shifted
        intro k behind
        rw [← shifted, List.drop_drop, Nat.add_sub_cancel' behind]

theorem leftmost_all (nonempty : marker ≠ []) (text : List Char) :
    Leftmost marker text 0 (all marker text) :=
  leftmost_allFrom nonempty text 0

namespace Leftmost

/-- There is one list of leftmost occurrences. -/
theorem unique (first : Leftmost marker text start found)
    (second : Leftmost marker text start others) : found = others := by
  induction first generalizing others with
  | none absent =>
      cases second with
      | none => rfl
      | next behind here => exact absurd here (absent _ behind)
  | @next start k later behind here before _ ih =>
      cases second with
      | none absent => exact absurd here (absent _ behind)
      | @next _ k' later' behind' here' before' tail' =>
          have same : k = k' := by
            apply Nat.le_antisymm
            · exact Nat.le_of_not_lt fun less => before k' behind' less here'
            · exact Nat.le_of_not_lt fun less => before' k behind less here
          subst same
          rw [ih tail']

theorem prefix_of_mem (leftmost : Leftmost marker text start found) :
    ∀ k ∈ found, marker <+: text.drop k := by
  induction leftmost with
  | none => exact fun _ mem => absurd mem List.not_mem_nil
  | next _ here _ _ ih => exact List.forall_mem_cons.mpr ⟨here, ih⟩

/-- Where a marker does not occur nothing is passed over. -/
theorem of_le {later : Nat} (leftmost : Leftmost marker text later found) (order : start ≤ later)
    (absent : ∀ k, start ≤ k → k < later → ¬ marker <+: text.drop k) :
    Leftmost marker text start found := by
  cases leftmost with
  | none behind =>
      apply Leftmost.none
      intro k after
      by_cases before : k < later
      · exact absent k after before
      · exact behind k (Nat.le_of_not_lt before)
  | next after here before tail =>
      refine .next (order.trans after) here ?_ tail
      intro j after' less
      by_cases early : j < later
      · exact absent j after' early
      · exact before j (Nat.le_of_not_lt early) less

end Leftmost

theorem all_eq_iff (nonempty : marker ≠ []) :
    all marker text = found ↔ Leftmost marker text 0 found := by
  constructor
  · rintro rfl
    exact leftmost_all nonempty text
  · exact (leftmost_all nonempty text).unique

/-- An occurrence ends within the text. -/
theorem length_le_of_prefix_drop (nonempty : marker ≠ []) {k : Nat} (here : marker <+: text.drop k) :
    k + marker.length ≤ text.length := by
  have size := here.length_le
  have positive := List.length_pos_iff.mpr nonempty
  rw [List.length_drop] at size
  omega

theorem length_le_of_mem_all (nonempty : marker ≠ []) {k : Nat} (mem : k ∈ all marker text) :
    k + marker.length ≤ text.length :=
  length_le_of_prefix_drop nonempty ((leftmost_all nonempty text).prefix_of_mem k mem)

/-! ## Occurrences in lines -/

theorem Leftmost.behind_break (a : List Char) (leftmost : Leftmost marker text start found) :
    Leftmost marker (a ++ '\n' :: text) (a.length + 1 + start)
      (found.map fun k => a.length + 1 + k) := by
  have place (k : Nat) (behind : a.length + 1 ≤ k) :
      (a ++ '\n' :: text).drop k = text.drop (k - (a.length + 1)) := by
    rw [← Text.drop_behind_break a text, Nat.add_sub_cancel' behind]
  induction leftmost with
  | none absent =>
      apply Leftmost.none
      intro k behind
      rw [place k (by omega)]
      exact absent _ (by omega)
  | @next start k later behind here before _ ih =>
      rw [List.map_cons]
      apply Leftmost.next (Nat.add_le_add_left behind _)
      · rwa [Text.drop_behind_break]
      · intro j after less
        rw [place j (by omega)]
        exact before _ (by omega) (by omega)
      · rwa [Nat.add_assoc]

/-- A marker without a line feed that occurs before one ends before it. -/
theorem prefix_drop_append_break_iff (solid : '\n' ∉ marker) {a : List Char} {k : Nat}
    (within : k ≤ a.length) (rest : List Char) :
    marker <+: (a ++ '\n' :: rest).drop k ↔ marker <+: a.drop k := by
  rw [List.drop_append_of_le_length within]
  constructor
  · intro here
    have line : a.drop k ++ ['\n'] <+: a.drop k ++ '\n' :: rest := ⟨rest, by simp⟩
    obtain short | long := List.prefix_or_prefix_of_prefix here line
    · obtain whole | inside := List.prefix_concat_iff.mp short
      · exact absurd (by simp [whole]) solid
      · exact inside
    · exact absurd (long.subset (by simp)) solid
  · intro here
    exact here.trans (List.prefix_append _ _)

section
variable (nonempty : marker ≠ []) (solid : '\n' ∉ marker) (a rest : List Char)
include nonempty solid

theorem Leftmost.append_break (first : Leftmost marker a start found)
    (within : start ≤ a.length + 1) (second : Leftmost marker rest 0 others) :
    Leftmost marker (a ++ '\n' :: rest) start
      (found ++ others.map fun k => a.length + 1 + k) := by
  have occurs {k : Nat} (within : k ≤ a.length) :=
    prefix_drop_append_break_iff solid within rest
  induction first with
  | none absent =>
      -- Nothing more on the first line, so the next occurrence is the first one behind the line feed.
      apply (second.behind_break a).of_le within
      intro k after before
      rw [occurs (by omega)]
      exact absent k after
  | next behind here before _ ih =>
      have ends := length_le_of_prefix_drop nonempty here
      apply Leftmost.next behind
      · exact (occurs (by omega)).mpr here
      · intro j after less
        rw [occurs (by omega)]
        exact before j after less
      · exact ih (by omega)

/-- The occurrences in a text are those before a line feed and those behind it. -/
theorem all_append_break :
    all marker (a ++ '\n' :: rest) =
      all marker a ++ (all marker rest).map fun k => a.length + 1 + k :=
  (all_eq_iff nonempty).mpr <| (leftmost_all nonempty a).append_break nonempty solid a rest
    (Nat.zero_le _) (leftmost_all nonempty rest)

end

theorem all_nil (nonempty : marker ≠ []) : all marker [] = [] := by
  apply (all_eq_iff nonempty).mpr
  apply Leftmost.none
  intro k _
  rwa [List.drop_nil, List.prefix_nil]

end RenderTrace.Occurrence
