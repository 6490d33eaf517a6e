import Mathlib.Data.List.TakeWhile
import RenderTrace.Text.Blank

/-!
# What trimming leaves

A trimmed text has no blank at either end, and trimming takes nothing but the blanks
around it.
-/

namespace RenderTrace.Text

/-- No blank stands at either end. -/
def IsTrimmed (cs : List Char) : Prop :=
  (cs.map isBlank).head? ≠ some true ∧ (cs.map isBlank).getLast? ≠ some true

theorem head?_dropWhile_isBlank (cs : List Char) :
    ((cs.dropWhile isBlank).map isBlank).head? ≠ some true := by
  have stops := List.head?_dropWhile_not isBlank cs
  rw [List.head?_map]
  cases head : (cs.dropWhile isBlank).head? with
  | none => simp
  | some c =>
      rw [head] at stops
      simpa using stops

theorem trimEnd_isPrefix (cs : List Char) : trimEnd cs <+: cs := by
  have suffix : cs.reverse.dropWhile isBlank <:+ cs.reverse := List.dropWhile_suffix isBlank
  rw [trimEnd, ← List.reverse_suffix, List.reverse_reverse]
  exact suffix

theorem isTrimmed_trimChars (cs : List Char) : IsTrimmed (trimChars cs) := by
  constructor
  · intro head
    obtain ⟨more, whole⟩ := trimEnd_isPrefix (trimStart cs)
    apply head?_dropWhile_isBlank cs
    rw [← trimStart, ← whole, List.map_append, List.head?_append]
    rw [trimChars] at head
    rw [head, Option.some_or]
  · intro last
    apply head?_dropWhile_isBlank (trimStart cs).reverse
    rwa [trimChars, trimEnd, List.map_reverse, List.getLast?_reverse] at last

theorem dropWhile_eq_self {cs : List Char} (head : (cs.map isBlank).head? ≠ some true) :
    cs.dropWhile isBlank = cs := by
  cases cs with
  | nil => rfl
  | cons c rest =>
      apply List.dropWhile_cons_of_neg
      simpa using head

theorem trimChars_of_isTrimmed {cs : List Char} (trimmed : IsTrimmed cs) : trimChars cs = cs := by
  obtain ⟨head, last⟩ := trimmed
  have back : cs.reverse.dropWhile isBlank = cs.reverse := by
    apply dropWhile_eq_self
    rwa [List.map_reverse, List.head?_reverse]
  rw [trimChars, trimStart, dropWhile_eq_self head, trimEnd, back, List.reverse_reverse]

/-- A text is what trimming leaves of it with blanks around. -/
theorem exists_trimChars (cs : List Char) : ∃ front back, (∀ c ∈ front, isBlank c) ∧
    (∀ c ∈ back, isBlank c) ∧ cs = front ++ (trimChars cs ++ back) := by
  have blanks {l : List Char} : ∀ c ∈ l.takeWhile isBlank, isBlank c :=
    fun _ => List.mem_takeWhile_imp
  refine ⟨cs.takeWhile isBlank, ((trimStart cs).reverse.takeWhile isBlank).reverse, blanks,
    fun c mem => blanks c (List.mem_reverse.mp mem), ?_⟩
  rw [trimChars, trimEnd, ← List.reverse_append, List.takeWhile_append_dropWhile,
    List.reverse_reverse, trimStart, List.takeWhile_append_dropWhile]

theorem trimChars_eq_nil_iff {cs : List Char} : trimChars cs = [] ↔ ∀ c ∈ cs, isBlank c := by
  constructor
  · intro nothing
    obtain ⟨front, back, before, after, whole⟩ := exists_trimChars cs
    rw [nothing, List.nil_append] at whole
    rw [whole]
    exact List.forall_mem_append.mpr ⟨before, after⟩
  · intro blank
    rw [trimChars, trimStart, List.dropWhile_eq_nil_iff.mpr blank]
    rfl

theorem trimStart_append_of_blank {front : List Char} (blank : ∀ c ∈ front, isBlank c)
    (cs : List Char) : trimStart (front ++ cs) = trimStart cs :=
  List.dropWhile_append_of_pos blank

theorem trimEnd_append_of_blank {back : List Char} (blank : ∀ c ∈ back, isBlank c)
    (cs : List Char) : trimEnd (cs ++ back) = trimEnd cs := by
  rw [trimEnd, List.reverse_append,
    List.dropWhile_append_of_pos fun c mem => blank c (List.mem_reverse.mp mem), trimEnd]

theorem trimChars_append_of_blank_left {front : List Char} (blank : ∀ c ∈ front, isBlank c)
    (cs : List Char) : trimChars (front ++ cs) = trimChars cs := by
  rw [trimChars, trimStart_append_of_blank blank, trimChars]

theorem trimChars_append_of_blank_right {back : List Char} (blank : ∀ c ∈ back, isBlank c)
    (cs : List Char) : trimChars (cs ++ back) = trimChars cs := by
  rw [trimChars, trimStart, List.dropWhile_append, trimChars, trimStart]
  split
  next nothing => rw [List.isEmpty_iff.mp nothing, List.dropWhile_eq_nil_iff.mpr blank]
  next => exact trimEnd_append_of_blank blank _

theorem dropWhile_isBlank_append_cons {c : Char} (solid : isBlank c = false) (a b : List Char) :
    (a ++ c :: b).dropWhile isBlank = a.dropWhile isBlank ++ c :: b := by
  have stop : (c :: b).dropWhile isBlank = c :: b :=
    List.dropWhile_cons_of_neg (Bool.not_eq_true _ ▸ solid)
  rw [List.dropWhile_append, stop]
  split
  next nothing => rw [List.isEmpty_iff.mp nothing, List.nil_append]
  next => rfl

/-- Trimming works on each side of a character that is no blank. -/
theorem trimChars_append_cons {c : Char} (solid : isBlank c = false) (a b : List Char) :
    trimChars (a ++ c :: b) = trimStart (a ++ c :: trimEnd b) := by
  have solidEnd (front : List Char) : trimEnd (front ++ c :: b) = front ++ c :: trimEnd b := by
    rw [trimEnd, List.reverse_append, List.reverse_cons, List.append_assoc, List.singleton_append,
      dropWhile_isBlank_append_cons solid, List.reverse_append, List.reverse_cons,
      List.reverse_reverse, List.append_assoc, List.singleton_append, trimEnd]
  calc trimChars (a ++ c :: b)
      = trimEnd (trimStart a ++ c :: b) := by
        rw [trimChars, trimStart, dropWhile_isBlank_append_cons solid, trimStart]
    _ = trimStart a ++ c :: trimEnd b := solidEnd _
    _ = trimStart (a ++ c :: trimEnd b) := by
        rw [trimStart, trimStart, dropWhile_isBlank_append_cons solid]

end RenderTrace.Text
