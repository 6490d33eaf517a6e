import RenderTrace.Path

/-!
# The parts of a path

A text is cut into parts at its slashes. What is written behind a text and holds no
slash goes to its last part, and a path has a root of its own exactly when its text
begins with a slash.
-/

namespace RenderTrace.Path

variable {a b piece : List Char} {c : Char}

theorem splitSlashes_ne_nil (cs : List Char) : splitSlashes cs ≠ [] := by
  fun_cases splitSlashes cs with
  | case1 => simp
  | case2 => simp
  | case3 => simp
  | case4 => simp

/-- A character that is no slash goes to the first piece. -/
theorem splitSlashes_cons (solid : c ≠ '/') (cs : List Char) : ∃ piece pieces,
    splitSlashes cs = piece :: pieces ∧ splitSlashes (c :: cs) = (c :: piece) :: pieces := by
  obtain ⟨piece, pieces, cut⟩ := List.exists_cons_of_ne_nil (splitSlashes_ne_nil cs)
  refine ⟨piece, pieces, cut, ?_⟩
  rw [splitSlashes.eq_3 c cs solid, cut]

theorem mem_of_mem_splitSlashes (mem : piece ∈ splitSlashes a) : ∀ c ∈ piece, c ∈ a := by
  induction a generalizing piece with
  | nil =>
      rw [splitSlashes, List.mem_singleton] at mem
      simp [mem]
  | cons d a ih =>
      intro c inside
      by_cases slash : d = '/'
      · subst slash
        rw [splitSlashes, List.mem_cons] at mem
        obtain rfl | mem := mem
        · exact absurd inside List.not_mem_nil
        · exact List.mem_cons_of_mem _ (ih mem c inside)
      · obtain ⟨first, others, cut, cut'⟩ := splitSlashes_cons slash a
        rw [cut'] at mem
        rw [cut] at ih
        obtain rfl | mem := List.mem_cons.mp mem
        · obtain rfl | inside := List.mem_cons.mp inside
          · exact List.mem_cons_self
          · exact List.mem_cons_of_mem _ (ih List.mem_cons_self c inside)
        · exact List.mem_cons_of_mem _ (ih (List.mem_cons_of_mem _ mem) c inside)

theorem splitSlashes_of_not_mem (solid : '/' ∉ b) : splitSlashes b = [b] := by
  induction b with
  | nil => rfl
  | cons c b ih =>
      rw [List.mem_cons, not_or] at solid
      obtain ⟨piece, pieces, cut, longer⟩ := splitSlashes_cons (Ne.symm solid.1) b
      rw [ih solid.2] at cut
      cases cut
      exact longer

/-- What holds no slash goes to the last piece of the text before it. -/
theorem splitSlashes_append (solid : '/' ∉ b) (a : List Char) : ∃ front last,
    splitSlashes a = front ++ [last] ∧ splitSlashes (a ++ b) = front ++ [last ++ b] := by
  induction a with
  | nil => exact ⟨[], [], rfl, splitSlashes_of_not_mem solid⟩
  | cons c a ih =>
      obtain ⟨front, last, cut, longer⟩ := ih
      by_cases slash : c = '/'
      · subst slash
        refine ⟨[] :: front, last, ?_, ?_⟩
        · rw [splitSlashes, cut, List.cons_append]
        · rw [List.cons_append, splitSlashes, longer, List.cons_append]
      · obtain ⟨piece, pieces, short, short'⟩ := splitSlashes_cons slash a
        obtain ⟨piece', pieces', long, long'⟩ := splitSlashes_cons slash (a ++ b)
        rw [cut] at short
        rw [longer] at long
        cases front with
        | nil =>
            cases short
            cases long
            exact ⟨[], c :: last, short', long'⟩
        | cons _ front =>
            cases short
            cases long
            exact ⟨(c :: _) :: front, last, short', long'⟩

theorem rootOf_eq_relative_iff {cs : List Char} : rootOf cs = .relative ↔ cs.head? ≠ some '/' := by
  have zero : rootOf cs = .relative ↔ (cs.takeWhile (· == '/')).length = 0 := by
    rw [rootOf]
    split
    next none => simp [none]
    next two => simp [two]
    next some _ => exact ⟨nofun, fun none => absurd none some⟩
  rw [zero, List.length_eq_zero_iff]
  cases cs with
  | nil => simp
  | cons c cs =>
      by_cases slash : c = '/'
      · simp [slash]
      · simp [slash]

theorem mem_parts_ofText {s part : String} (mem : part ∈ (ofText s).parts) :
    part.toList ∈ splitSlashes s.toList := by
  obtain ⟨piece, inside, kept⟩ := List.mem_filterMap.mp mem
  split at kept
  next => cases kept
  next =>
    cases kept
    rwa [String.toList_ofList]

/-- The path lies below a root: it is the root followed by parts, none of which leads up. -/
def IsBelow (p root : Path) : Prop :=
  ∃ parts, p = ⟨root.root, root.parts ++ parts⟩ ∧ ".." ∉ parts

theorem isBelow_join {root q : Path} (relative : q.root = .relative) (downward : ".." ∉ q.parts) :
    (root.join q).IsBelow root :=
  ⟨q.parts, by rw [join, if_pos relative], downward⟩

end RenderTrace.Path
