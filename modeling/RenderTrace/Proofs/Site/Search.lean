import Mathlib.Logic.Function.Iterate
import RenderTrace.Proofs.Site.Occurrence

/-!
# The search for a marker, step by step

The search for every occurrence of a marker looks for the first one, and from each that it
finds on for the next. It moves to the right by the length of the marker at least, so it ends
for every marker that is not empty and gives at most as many places as the line has
characters. An empty marker is found at one place forever.
-/

namespace RenderTrace.Occurrence

variable {marker text : List Char}

/-- The first occurrence of the marker that begins at a position or behind it. -/
def firstFrom? (marker text : List Char) (start : Nat) : Option Nat :=
  if start ≤ text.length then (first? marker (text.drop start)).map (start + ·) else none

/-- One step of the search: from the place it has found, it goes on behind the marker. -/
def advance (marker text : List Char) (place : Option Nat) : Option Nat :=
  place.bind fun k => firstFrom? marker text (k + marker.length)

/-- The place that the search has found after so many steps; none when it has ended before. -/
def found? (marker text : List Char) (n : Nat) : Option Nat :=
  (advance marker text)^[n] (firstFrom? marker text 0)

theorem found?_succ (marker text : List Char) (n : Nat) :
    found? marker text (n + 1) = advance marker text (found? marker text n) :=
  Function.iterate_succ_apply' _ _ _

/-- The search ends: after some steps there is nothing more to find. -/
def SearchEnds (marker text : List Char) : Prop :=
  ∃ n, found? marker text n = none

theorem le_of_firstFrom? {start k : Nat} (here : firstFrom? marker text start = some k) :
    start ≤ k := by
  rw [firstFrom?] at here
  split at here
  · obtain ⟨i, _, rfl⟩ := Option.map_eq_some_iff.mp here
    exact Nat.le_add_right start i
  · exact absurd here nofun

/-- Every step moves to the right, by the length of the marker at least. -/
theorem le_of_found?_succ {n j k : Nat} (before : found? marker text n = some j)
    (after : found? marker text (n + 1) = some k) : j + marker.length ≤ k := by
  rw [found?_succ, before] at after
  exact le_of_firstFrom? after

theorem firstFrom?_eq_none {start : Nat} (absent : ∀ k, start ≤ k → ¬ marker <+: text.drop k) :
    firstFrom? marker text start = none := by
  rw [firstFrom?]
  split
  · rw [Option.map_eq_none_iff]
    cases here : first? marker (text.drop start) with
    | none => rfl
    | some i =>
        have occurs := prefix_drop_of_first? here
        rw [List.drop_drop] at occurs
        exact absurd occurs (absent _ (Nat.le_add_right start i))
  · rfl

/-! ## Markers that are not empty -/

section
variable (nonempty : marker ≠ [])
include nonempty

theorem firstFrom?_eq_some {start k : Nat} (behind : start ≤ k) (here : marker <+: text.drop k)
    (before : ∀ j, start ≤ j → j < k → ¬ marker <+: text.drop j) :
    firstFrom? marker text start = some k := by
  have ends := length_le_of_prefix_drop nonempty here
  obtain ⟨i, rfl⟩ := Nat.exists_eq_add_of_le behind
  have first : first? marker (text.drop start) = some i := by
    apply first?_of_prefix
    · rwa [List.drop_drop]
    · intro j less
      rw [List.drop_drop]
      exact before _ (Nat.le_add_right start j) (Nat.add_lt_add_left less start)
  rw [firstFrom?, if_pos (by omega), first, Option.map_some]

/-- From any position on, the steps of the search find the leftmost occurrences in turn. -/
theorem Leftmost.iterate_advance {start : Nat} {found : List Nat}
    (leftmost : Leftmost marker text start found) (n : Nat) :
    (advance marker text)^[n] (firstFrom? marker text start) = found[n]? := by
  induction leftmost generalizing n with
  | none absent =>
      rw [firstFrom?_eq_none absent, List.getElem?_nil]
      exact Function.iterate_fixed rfl n
  | @next start k later behind here before tail ih =>
      rw [firstFrom?_eq_some nonempty behind here before]
      cases n with
      | zero => rfl
      | succ n =>
          rw [List.getElem?_cons_succ, ← ih n, Function.iterate_succ_apply]
          rfl

/-- The occurrences are what the search finds step by step. -/
theorem found?_eq_getElem?_all (n : Nat) : found? marker text n = (all marker text)[n]? :=
  (leftmost_all nonempty text).iterate_advance nonempty n

theorem Leftmost.length_le {start : Nat} {found : List Nat}
    (leftmost : Leftmost marker text start found) (within : start ≤ text.length) :
    start + found.length ≤ text.length := by
  induction leftmost with
  | none => simpa using within
  | @next start k later behind here before tail ih =>
      have ends := length_le_of_prefix_drop nonempty here
      have positive := List.length_pos_iff.mpr nonempty
      have rest := ih ends
      rw [List.length_cons]
      omega

/-- There are no more occurrences than characters. -/
theorem length_all_le : (all marker text).length ≤ text.length := by
  have all := (leftmost_all nonempty text).length_le nonempty (Nat.zero_le _)
  rwa [Nat.zero_add] at all

theorem lt_of_found?_succ {n j k : Nat} (before : found? marker text n = some j)
    (after : found? marker text (n + 1) = some k) : j < k := by
  have moved := le_of_found?_succ before after
  have positive := List.length_pos_iff.mpr nonempty
  omega

end

/-! ## The empty marker -/

theorem firstFrom?_nil_zero (text : List Char) : firstFrom? [] text 0 = some 0 := by
  cases text <;> rfl

/-- The empty marker is found at the first place in every step. -/
theorem found?_nil (text : List Char) (n : Nat) : found? [] text n = some 0 := by
  rw [found?, firstFrom?_nil_zero]
  exact Function.iterate_fixed (firstFrom?_nil_zero text) n

theorem searchEnds_iff : SearchEnds marker text ↔ marker ≠ [] := by
  constructor
  · rintro ⟨n, ended⟩ rfl
    rw [found?_nil] at ended
    exact absurd ended nofun
  · intro nonempty
    refine ⟨(all marker text).length, ?_⟩
    rw [found?_eq_getElem?_all nonempty, List.getElem?_eq_none (Nat.le_refl _)]

end RenderTrace.Occurrence
