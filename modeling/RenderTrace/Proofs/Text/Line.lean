import Mathlib.Data.List.DropRight
import RenderTrace.Text.Line

/-!
# Lines around a position

The line on which a position of a text lies begins behind the line feed before it and ends
with the line feed after it. What is known of a position is read off the first line of the
text when it lies there, and otherwise it is what is known of the position in the rest.
The lines of a text, cut at the numbers of two positions, are the text from the start of
the line of the one to the end of the line of the other.
-/

namespace RenderTrace.Text

/-- The characters up to the first line feed, and that line feed. -/
def upToBreak (cs : List Char) : List Char :=
  cs.takeWhile (· != '\n') ++ (cs.dropWhile (· != '\n')).take 1

/-- The line on which a position of a text lies: what stands between the line feed before it and the
one after it, and the latter. -/
def lineAt (cs : List Char) (k : Nat) : List Char :=
  (cs.take k).rtakeWhile (· != '\n') ++ upToBreak (cs.drop k)

/-- The number of line feeds before a position. -/
def breaksBefore (cs : List Char) (k : Nat) : Nat :=
  (cs.take k).count '\n'

theorem upToBreak_break (rest : List Char) : upToBreak ('\n' :: rest) = ['\n'] := by
  rw [upToBreak, List.takeWhile_cons_of_neg (by simp), List.dropWhile_cons_of_neg (by simp)]
  rfl

/-- A text is one line, or a line that ends with a line feed and the rest. -/
@[elab_as_elim]
theorem lineInduction {motive : List Char → Prop} (last : ∀ a, '\n' ∉ a → motive a)
    (cons : ∀ a rest, '\n' ∉ a → motive rest → motive (a ++ '\n' :: rest)) (cs : List Char) :
    motive cs := by
  induction length : cs.length using Nat.strongRecOn generalizing cs with
  | ind size ih =>
      by_cases broken : '\n' ∈ cs
      · obtain ⟨a, rest, rfl, unbroken⟩ := List.eq_append_cons_of_mem broken
        apply cons a rest unbroken
        apply ih rest.length _ rest rfl
        rw [← length, List.length_append, List.length_cons]
        omega
      · exact last cs broken

/-! ## Behind a line feed -/

section
variable (a rest : List Char) (k : Nat)

theorem take_behind_break :
    (a ++ '\n' :: rest).take (a.length + 1 + k) = a ++ '\n' :: rest.take k := by
  rw [List.take_append, List.take_of_length_le (by omega)]
  have behind : a.length + 1 + k - a.length = k + 1 := by omega
  rw [behind, List.take_succ_cons]

theorem drop_behind_break : (a ++ '\n' :: rest).drop (a.length + 1 + k) = rest.drop k := by
  have behind : a.length + 1 + k = a.length + (k + 1) := by omega
  rw [behind, ← List.drop_drop, List.drop_left, List.drop_succ_cons]

theorem rtakeWhile_append_break :
    (a ++ '\n' :: rest).rtakeWhile (· != '\n') = rest.rtakeWhile (· != '\n') := by
  induction rest using List.reverseRecOn with
  | nil => simp
  | append_singleton rest c ih =>
      rw [← List.cons_append, ← List.append_assoc]
      by_cases break? : c = '\n'
      · simp [break?]
      · rw [List.rtakeWhile_concat_pos _ _ _ (by simpa using break?),
          List.rtakeWhile_concat_pos _ _ _ (by simpa using break?), ih]

theorem lineAt_behind_break : lineAt (a ++ '\n' :: rest) (a.length + 1 + k) = lineAt rest k := by
  rw [lineAt, take_behind_break, rtakeWhile_append_break, drop_behind_break, lineAt]

end

/-! ## On the first line -/

section
variable {a : List Char} (unbroken : '\n' ∉ a)
include unbroken

theorem ne_break_of_subset {l : List Char} (part : l ⊆ a) : ∀ c ∈ l, (c != '\n') = true := by
  intro c mem
  rw [bne_iff_ne]
  rintro rfl
  exact unbroken (part mem)

theorem breaksBefore_behind_break (rest : List Char) (k : Nat) :
    breaksBefore (a ++ '\n' :: rest) (a.length + 1 + k) = breaksBefore rest k + 1 := by
  rw [breaksBefore, take_behind_break, List.count_append, List.count_eq_zero.mpr unbroken,
    List.count_cons_self, Nat.zero_add, breaksBefore]

theorem charLines_append_break (rest : List Char) :
    charLines (a ++ '\n' :: rest) = (a ++ ['\n']) :: charLines rest := by
  induction a with
  | nil => rw [List.nil_append, charLines, if_pos rfl, List.nil_append]
  | cons c a ih =>
      rw [List.mem_cons, not_or] at unbroken
      rw [List.cons_append, charLines, if_neg (Ne.symm unbroken.1), ih unbroken.2, List.cons_append]

theorem charLines_of_not_mem (nonempty : a ≠ []) : charLines a = [a] := by
  induction a with
  | nil => exact absurd rfl nonempty
  | cons c a ih =>
      rw [List.mem_cons, not_or] at unbroken
      rw [charLines, if_neg (Ne.symm unbroken.1)]
      cases a with
      | nil => rfl
      | cons d a => rw [ih unbroken.2 (List.cons_ne_nil d a)]

theorem upToBreak_append (tail : List Char) : upToBreak (a ++ tail) = a ++ upToBreak tail := by
  have plain := ne_break_of_subset unbroken (List.Subset.refl a)
  rw [upToBreak, List.takeWhile_append_of_pos plain, List.dropWhile_append_of_pos plain,
    List.append_assoc, upToBreak]

/-- What is said of each line of a text is said of the first one and of each line of the rest. -/
theorem flatMap_range_append_break {β : Type} (rest : List Char) (f : Nat → List β) :
    (List.range ((a ++ '\n' :: rest).count '\n' + 1)).flatMap f =
      f 0 ++ (List.range (rest.count '\n' + 1)).flatMap fun i => f (i + 1) := by
  have breaks : (a ++ '\n' :: rest).count '\n' = rest.count '\n' + 1 := by
    rw [List.count_append, List.count_eq_zero.mpr unbroken, List.count_cons_self, Nat.zero_add]
  rw [breaks, List.range_succ_eq_map, List.flatMap_cons, List.flatMap_map]

variable {k : Nat} (within : k ≤ a.length) (tail : List Char)
include within

theorem breaksBefore_append : breaksBefore (a ++ tail) k = 0 := by
  rw [breaksBefore, List.take_append_of_le_length within]
  exact List.count_eq_zero.mpr fun mem => unbroken (List.mem_of_mem_take mem)

theorem upToBreak_drop_append :
    upToBreak ((a ++ tail).drop k) = (a ++ upToBreak tail).drop k := by
  have unbroken : '\n' ∉ a.drop k := fun mem => unbroken (List.mem_of_mem_drop mem)
  rw [List.drop_append_of_le_length within, List.drop_append_of_le_length within,
    upToBreak_append unbroken]

theorem lineAt_append : lineAt (a ++ tail) k = a ++ upToBreak tail := by
  have front : (a.take k).rtakeWhile (· != '\n') = a.take k :=
    List.rtakeWhile_eq_self_iff.mpr (ne_break_of_subset unbroken (List.take_subset k a))
  calc lineAt (a ++ tail) k
      = (a.take k).rtakeWhile (· != '\n') ++ upToBreak ((a ++ tail).drop k) := by
        rw [lineAt, List.take_append_of_le_length within]
    _ = a.take k ++ (a.drop k ++ upToBreak tail) := by
        rw [front, upToBreak_drop_append unbroken within, List.drop_append_of_le_length within]
    _ = a ++ upToBreak tail := by
        rw [← List.append_assoc, List.take_append_drop]

end

/-! ## The lines of positions -/

theorem take_append_between {α : Type} (l : List α) {i j : Nat} (ordered : i ≤ j) :
    l.take i ++ (l.take j).drop i = l.take j := by
  have early : (l.take j).take i = l.take i := by rw [List.take_take, Nat.min_eq_left ordered]
  rw [← early, List.take_append_drop]

theorem breaksBefore_mono (cs : List Char) {i j : Nat} (ordered : i ≤ j) :
    breaksBefore cs i ≤ breaksBefore cs j :=
  (List.take_prefix_take_left ordered).sublist.count_le '\n'

/-- A position lies on the first line of a text, or behind the line feed that ends it. -/
theorem within_or_behind (a : List Char) (k : Nat) : k ≤ a.length ∨ ∃ j, k = a.length + 1 + j := by
  rcases Nat.lt_or_ge a.length k with behind | within
  · obtain ⟨j, rfl⟩ := Nat.exists_eq_add_of_le behind
    exact Or.inr ⟨j, rfl⟩
  · exact Or.inl within

/-- What stands on the line of a position before it. -/
def lineFront (cs : List Char) (k : Nat) : List Char :=
  (cs.take k).rtakeWhile (· != '\n')

theorem lineAt_eq (cs : List Char) (k : Nat) :
    lineAt cs k = lineFront cs k ++ upToBreak (cs.drop k) :=
  rfl

section
variable {a : List Char} (unbroken : '\n' ∉ a) (k : Nat)
include unbroken

theorem breaksBefore_of_not_mem : breaksBefore a k = 0 :=
  List.count_eq_zero.mpr fun mem => unbroken (List.mem_of_mem_take mem)

theorem lineFront_of_not_mem : lineFront a k = a.take k :=
  List.rtakeWhile_eq_self_iff.mpr (ne_break_of_subset unbroken (List.take_subset k a))

theorem upToBreak_drop_of_not_mem : upToBreak (a.drop k) = a.drop k := by
  have rest : '\n' ∉ a.drop k := fun mem => unbroken (List.mem_of_mem_drop mem)
  have alone := upToBreak_append rest []
  rw [List.append_nil] at alone
  exact alone.trans (List.append_nil _)

end

/-- The lines before that of a position, and what stands before the position on its line, are the
text before the position. -/
theorem flatten_take_breaksBefore (cs : List Char) (k : Nat) :
    ((charLines cs).take (breaksBefore cs k)).flatten ++ lineFront cs k = cs.take k := by
  induction cs using lineInduction generalizing k with
  | last a unbroken =>
      rw [breaksBefore_of_not_mem unbroken, List.take_zero, List.flatten_nil, List.nil_append,
        lineFront_of_not_mem unbroken]
  | cons a rest unbroken ih =>
      obtain within | ⟨j, rfl⟩ := within_or_behind a k
      · have front : lineFront (a ++ '\n' :: rest) k = lineFront a k := by
          rw [lineFront, lineFront, List.take_append_of_le_length within]
        rw [breaksBefore_append unbroken within, List.take_zero, List.flatten_nil, List.nil_append,
          front, lineFront_of_not_mem unbroken, List.take_append_of_le_length within]
      · have front : lineFront (a ++ '\n' :: rest) (a.length + 1 + j) = lineFront rest j := by
          rw [lineFront, take_behind_break, rtakeWhile_append_break, lineFront]
        rw [breaksBefore_behind_break unbroken, charLines_append_break unbroken,
          List.take_succ_cons, List.flatten_cons, front, take_behind_break, List.append_assoc, ih,
          List.append_assoc, List.singleton_append]

/-- The lines up to that of a position are the text up to the end of that line. -/
theorem flatten_take_succ_breaksBefore (cs : List Char) (k : Nat) :
    ((charLines cs).take (breaksBefore cs k + 1)).flatten = cs.take k ++ upToBreak (cs.drop k) := by
  induction cs using lineInduction generalizing k with
  | last a unbroken =>
      rw [breaksBefore_of_not_mem unbroken, upToBreak_drop_of_not_mem unbroken,
        List.take_append_drop]
      by_cases empty : a = []
      · subst empty
        rfl
      · rw [charLines_of_not_mem unbroken empty]
        simp
  | cons a rest unbroken ih =>
      rw [charLines_append_break unbroken]
      obtain within | ⟨j, rfl⟩ := within_or_behind a k
      · rw [breaksBefore_append unbroken within, upToBreak_drop_append unbroken within,
          upToBreak_break, List.take_append_of_le_length within,
          List.drop_append_of_le_length within, ← List.append_assoc, List.take_append_drop]
        simp
      · rw [breaksBefore_behind_break unbroken, List.take_succ_cons, List.flatten_cons, ih,
          take_behind_break, drop_behind_break, List.append_assoc, List.append_assoc,
          List.singleton_append, List.cons_append]

/-- The lines from that of one position to that of another are the text from the start of the first
line to the end of the last. -/
theorem flatten_lines_between (cs : List Char) {i j : Nat} (ordered : i ≤ j) :
    (((charLines cs).take (breaksBefore cs j + 1)).drop (breaksBefore cs i)).flatten =
      lineFront cs i ++ ((cs.take j).drop i ++ upToBreak (cs.drop j)) := by
  have fewer : breaksBefore cs i ≤ breaksBefore cs j + 1 :=
    Nat.le_succ_of_le (breaksBefore_mono cs ordered)
  apply List.append_cancel_left
  calc ((charLines cs).take (breaksBefore cs i)).flatten ++
        (((charLines cs).take (breaksBefore cs j + 1)).drop (breaksBefore cs i)).flatten
      = ((charLines cs).take (breaksBefore cs j + 1)).flatten := by
        rw [← List.flatten_append, take_append_between (charLines cs) fewer]
    _ = cs.take i ++ ((cs.take j).drop i ++ upToBreak (cs.drop j)) := by
        rw [flatten_take_succ_breaksBefore, ← List.append_assoc, take_append_between cs ordered]
    _ = ((charLines cs).take (breaksBefore cs i)).flatten ++
          (lineFront cs i ++ ((cs.take j).drop i ++ upToBreak (cs.drop j))) := by
        rw [← List.append_assoc _ (lineFront cs i), flatten_take_breaksBefore]

theorem upToBreak_ne_nil {cs : List Char} (nonempty : cs ≠ []) : upToBreak cs ≠ [] := by
  obtain ⟨c, rest, rfl⟩ := List.exists_cons_of_ne_nil nonempty
  by_cases broken : c = '\n'
  · rw [broken, upToBreak_break]
    exact List.cons_ne_nil _ _
  · rw [upToBreak, List.takeWhile_cons_of_pos (by simpa using broken)]
    exact List.cons_ne_nil _ _

theorem upToBreak_drop_ne_nil {cs : List Char} {k : Nat} (within : k < cs.length) :
    upToBreak (cs.drop k) ≠ [] :=
  upToBreak_ne_nil fun empty => Nat.not_le_of_lt within (List.drop_eq_nil_iff.mp empty)

/-- The line with the number of a position is the one on which it lies. -/
theorem getElem?_breaksBefore {cs : List Char} {k : Nat} (within : k < cs.length) :
    (charLines cs)[breaksBefore cs k]? = some (lineAt cs k) := by
  have alone := flatten_lines_between cs (Nat.le_refl k)
  rw [List.drop_take, Nat.add_sub_cancel_left, List.take_one, List.head?_drop, List.drop_take,
    Nat.sub_self, List.take_zero, List.nil_append, ← lineAt_eq] at alone
  cases there : (charLines cs)[breaksBefore cs k]? with
  | none =>
      rw [there] at alone
      have nothing := (List.append_eq_nil_iff.mp alone.symm).2
      exact absurd nothing (upToBreak_drop_ne_nil within)
  | some line =>
      rw [there, Option.toList_some, List.flatten_singleton] at alone
      rw [alone]

end RenderTrace.Text
