import Mathlib.Data.List.Infix
import RenderTrace.Proofs.Site.Occurrence

/-!
# What the search for a marker covers

The occurrences that a search finds do not overlap, and it passes over an occurrence only
when that begins within one it has found. So it passes over nothing when the marker cannot
overlap itself, which it can exactly when a proper part at its end is also its beginning. The
argument is an induction on the leftmost occurrences from a position on: nothing occurs before
the first of them, and what begins behind its end is left to the rest.
-/

namespace RenderTrace

namespace Occurrence

variable {marker text : List Char} {start : Nat} {found : List Nat}

/-! ## Overlapping occurrences -/

/-- A marker can overlap itself when a part of it, from a later character to its end, is also its
beginning. -/
def SelfOverlaps (marker : List Char) : Prop :=
  ∃ k < marker.length, 0 < k ∧ marker.drop k <+: marker

instance (marker : List Char) : Decidable (SelfOverlaps marker) :=
  inferInstanceAs (Decidable (∃ k < marker.length, 0 < k ∧ marker.drop k <+: marker))

/-- A marker can overlap itself exactly when two of its occurrences in some text do. -/
theorem selfOverlaps_iff :
    SelfOverlaps marker ↔ ∃ (text : List Char) (j k : Nat), j < k ∧ k < j + marker.length ∧
      marker <+: text.drop j ∧ marker <+: text.drop k := by
  constructor
  · rintro ⟨k, inside, positive, part⟩
    refine ⟨marker.take k ++ marker, 0, k, positive, by omega, ?_, ?_⟩
    · have whole := (List.prefix_append_right_inj (marker.take k)).mpr part
      rwa [List.take_append_drop] at whole
    · have cut : (marker.take k).length = k := List.length_take_of_le (Nat.le_of_lt inside)
      rw [List.drop_left' cut]
  · rintro ⟨text, j, k, after, within, first, second⟩
    refine ⟨k - j, by omega, by omega, ?_⟩
    have tail := List.IsPrefix.drop first (k - j)
    rw [List.drop_drop, Nat.add_sub_cancel' (Nat.le_of_lt after)] at tail
    exact List.prefix_of_prefix_length_le tail second (List.drop_suffix _ _).length_le

/-! ## Covers -/

/-- Positions that cover the occurrences of a marker: they are occurrences from left to right, none
of which begins within another, and every occurrence begins within one of them. -/
structure Cover (marker text : List Char) (found : List Nat) : Prop where
  increasing : found.Pairwise (· < ·)
  apart : found.Pairwise fun j k => j + marker.length ≤ k
  occurs : ∀ k ∈ found, marker <+: text.drop k
  reaches : ∀ k, marker <+: text.drop k → ∃ j ∈ found, j ≤ k ∧ k < j + marker.length

/-- A marker that cannot overlap itself has no occurrences but those of a cover. -/
theorem Cover.mem_iff (cover : Cover marker text found) (single : ¬ SelfOverlaps marker) (k : Nat) :
    k ∈ found ↔ marker <+: text.drop k := by
  refine ⟨cover.occurs k, fun here => ?_⟩
  obtain ⟨j, mem, le, within⟩ := cover.reaches k here
  rcases Nat.eq_or_lt_of_le le with rfl | after
  · exact mem
  · have overlap := selfOverlaps_iff.mpr ⟨text, j, k, after, within, cover.occurs j mem, here⟩
    exact absurd overlap single

namespace Leftmost

theorem le_of_mem (leftmost : Leftmost marker text start found) : ∀ k ∈ found, start ≤ k := by
  induction leftmost with
  | none => exact fun _ mem => absurd mem List.not_mem_nil
  | next behind _ _ _ ih =>
      refine List.forall_mem_cons.mpr ⟨behind, fun k mem => ?_⟩
      have later := ih k mem
      omega

theorem apart (leftmost : Leftmost marker text start found) :
    found.Pairwise fun j k => j + marker.length ≤ k := by
  induction leftmost with
  | none => exact List.Pairwise.nil
  | next _ _ _ tail ih => exact List.Pairwise.cons tail.le_of_mem ih

/-- Every occurrence from the start on begins within one that is found. -/
theorem reaches (leftmost : Leftmost marker text start found) {k : Nat} (behind : start ≤ k)
    (here : marker <+: text.drop k) : ∃ j ∈ found, j ≤ k ∧ k < j + marker.length := by
  induction leftmost with
  | none absent => exact absurd here (absent k behind)
  | @next start i later _ _ before _ ih =>
      have le : i ≤ k := Nat.le_of_not_lt fun less => before k behind less here
      by_cases within : k < i + marker.length
      · exact ⟨i, List.mem_cons_self, le, within⟩
      · obtain ⟨j, mem, reached⟩ := ih (Nat.le_of_not_lt within)
        exact ⟨j, List.mem_cons_of_mem i mem, reached⟩

theorem cover (nonempty : marker ≠ []) (leftmost : Leftmost marker text 0 found) :
    Cover marker text found := by
  have positive := List.length_pos_iff.mpr nonempty
  exact
    { increasing := leftmost.apart.imp fun apart => by omega
      apart := leftmost.apart
      occurs := leftmost.prefix_of_mem
      reaches := fun _ here => leftmost.reaches (Nat.zero_le _) here }

end Leftmost

end Occurrence

namespace Vocabulary
open Occurrence

/-- A search for every occurrence of a marker that is not empty finds positions that cover the
occurrences in the line, and all of them when the marker cannot overlap itself. A search for one
occurrence on a line finds the first of these positions. -/
theorem positions_cover (v : Vocabulary) {marker : List Char} (nonempty : marker ≠ [])
    (line : List Char) :
    let found := ({ v with everyOccurrence := true } : Vocabulary).positions marker line
    Cover marker line found ∧
      (¬ SelfOverlaps marker → ∀ k, k ∈ found ↔ marker <+: line.drop k) ∧
      ({ v with everyOccurrence := false } : Vocabulary).positions marker line =
        found.head?.toList := by
  intro found
  have cover : Cover marker line found := (leftmost_all nonempty line).cover nonempty
  refine ⟨cover, fun single => cover.mem_iff single, ?_⟩
  rw [head?_positions]
  rfl

/-- The second of two overlapping occurrences begins within one that is found, and the marker of a
call cannot overlap itself, so its second occurrence is found. -/
theorem positions_cover_overlap :
    "@@".toList ≠ [] ∧ SelfOverlaps "@@".toList ∧
      (∃ j ∈ (ofTemplates []).positions "@@".toList "<@@@>".toList, j ≤ 2 ∧ 2 < j + 2) ∧
      "view(".toList ≠ [] ∧ ¬ SelfOverlaps "view(".toList ∧
      7 ∈ (ofTemplates []).positions "view(".toList "view()-view()".toList := by
  have doubled : "@@".toList ≠ [] := by decide
  have call : "view(".toList ≠ [] := by decide
  have single : ¬ SelfOverlaps "view(".toList := by decide
  obtain ⟨cover, -, -⟩ := positions_cover (ofTemplates []) doubled "<@@@>".toList
  obtain ⟨-, all, -⟩ := positions_cover (ofTemplates []) call "view()-view()".toList
  exact ⟨doubled, by decide, cover.reaches 2 (by decide), call, single,
    (all single 7).mpr (by decide)⟩

end Vocabulary

end RenderTrace
