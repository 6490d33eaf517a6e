import RenderTrace.Site

/-!
# Where sites stand

A site found by a search stands on one of the lines searched, and a directive of the
vocabulary reads its name from the text after its marker there.
-/

namespace RenderTrace

namespace Occurrence

theorem prefix_drop_of_first? {marker cs : List Char} {i : Nat} (h : first? marker cs = some i) :
    marker <+: cs.drop i := by
  induction cs generalizing i with
  | nil =>
      rw [first?] at h
      split at h
      next empty =>
        rw [List.isEmpty_iff.mp empty]
        exact List.nil_prefix
      next => exact absurd h nofun
  | cons c rest ih =>
      rw [first?] at h
      split at h
      next here =>
        cases h
        exact List.isPrefixOf_iff_prefix.mp here
      next =>
        obtain ⟨j, found, rfl⟩ := Option.map_eq_some_iff.mp h
        exact ih found

/-- An occurrence with none before it is the first. -/
theorem first?_of_prefix {marker cs : List Char} {i : Nat} (here : marker <+: cs.drop i)
    (first : ∀ k < i, ¬ marker <+: cs.drop k) : first? marker cs = some i := by
  induction i generalizing cs with
  | zero =>
      rw [List.drop_zero] at here
      cases cs with
      | nil => rw [first?, List.prefix_nil.mp here, List.isEmpty_nil, if_pos rfl]
      | cons c rest => rw [first?, if_pos (List.isPrefixOf_iff_prefix.mpr here)]
  | succ i ih =>
      have absent : ¬ marker <+: cs := first 0 (Nat.succ_pos i)
      cases cs with
      | nil => exact absurd here absent
      | cons c rest =>
          have later : first? marker rest = some i :=
            ih here fun k below => first (k + 1) (Nat.succ_lt_succ below)
          rw [first?, if_neg fun occurs => absent (List.isPrefixOf_iff_prefix.mp occurs), later,
            Option.map_some]

theorem prefix_drop_of_mem_allFrom {marker cs : List Char} {offset position : Nat}
    (h : position ∈ allFrom marker offset cs) :
    offset ≤ position ∧ marker <+: cs.drop (position - offset) := by
  fun_induction allFrom marker offset cs with
  | case1 => exact absurd h List.not_mem_nil
  | case2 offset cs i found _ =>
      rw [List.mem_singleton] at h
      subst h
      have same : offset + i - offset = i := by omega
      rw [same]
      exact ⟨by omega, prefix_drop_of_first? found⟩
  | case3 offset cs i found _ ih =>
      rcases List.mem_cons.mp h with rfl | later
      · have same : offset + i - offset = i := by omega
        rw [same]
        exact ⟨by omega, prefix_drop_of_first? found⟩
      · obtain ⟨after, occurs⟩ := ih later
        rw [List.drop_drop] at occurs
        have same : i + marker.length + (position - (offset + i + marker.length)) =
            position - offset := by omega
        rw [same] at occurs
        exact ⟨by omega, occurs⟩

end Occurrence

namespace Vocabulary

/-- A position that the search reports is an occurrence of the marker. -/
theorem prefix_drop_of_mem_positions {v : Vocabulary} {marker cs : List Char} {position : Nat}
    (h : position ∈ v.positions marker cs) : marker <+: cs.drop position := by
  rw [positions] at h
  split at h
  · exact (Occurrence.prefix_drop_of_mem_allFrom h).2
  · exact Occurrence.prefix_drop_of_first? (Option.mem_toList.mp h)

/-- The search reports the first occurrence of a marker first. -/
theorem head?_positions (v : Vocabulary) (marker cs : List Char) :
    (v.positions marker cs).head? = Occurrence.first? marker cs := by
  rw [positions]
  split
  · rw [Occurrence.all, Occurrence.allFrom]
    cases Occurrence.first? marker cs with
    | none => rfl
    | some i =>
        dsimp only
        rw [apply_ite List.head?, List.head?_cons, List.head?_cons, ite_self, Nat.zero_add]
  · cases Occurrence.first? marker cs <;> rfl

/-- The sites of lines are those of each line, read with the line after it. -/
theorem mem_sites {v : Vocabulary} {file : String} {start : Int} {lines : List String} {s : Site} :
    s ∈ v.sites file start lines ↔ ∃ (i : Nat) (line : String), lines[i]? = some line ∧
      s ∈ v.lineSites file (start + i) line lines[i + 1]? := by
  induction lines generalizing start with
  | nil => simp [sites]
  | cons first rest ih =>
      have number (i : Nat) : start + ((i + 1 : Nat) : Int) = start + 1 + i := by omega
      have next : (first :: rest)[0 + 1]? = rest.head? := by simp [List.head?_eq_getElem?]
      rw [sites, List.mem_append, ih]
      constructor
      · rintro (here | ⟨i, line, there, mem⟩)
        · refine ⟨0, first, rfl, ?_⟩
          rw [Int.natCast_zero, Int.add_zero, next]
          exact here
        · refine ⟨i + 1, line, there, ?_⟩
          rw [number]
          exact mem
      · rintro ⟨i, line, there, mem⟩
        cases i with
        | zero =>
            cases there
            rw [Int.natCast_zero, Int.add_zero, next] at mem
            exact .inl mem
        | succ i =>
            rw [number] at mem
            exact .inr ⟨i, line, there, mem⟩

end Vocabulary

/-- The text from which a directive reads its arguments when its marker stands at a position of a
line: what follows on the line without the blanks around it, or, when that is nothing, the next
line without the blanks around it, if there is one to read. -/
def Directive.tail (d : Directive) (line : String) (next? : Option String) (position : Nat) :
    List Char :=
  let rest := Text.trimChars (line.toList.drop (position + d.marker.toList.length))
  if rest = [] then (next?.map fun next => Text.trimChars next.toList).getD [] else rest

/-- A directive reads a site at a position of its line: the marker of the site is that of the
directive and stands there, and the arguments after it name the view. -/
structure Directive.Reads (d : Directive) (s : Site) (next? : Option String) (position : Nat) :
    Prop where
  marker : s.directive = d.marker
  occurs : s.directive.toList <+: s.line.toList.drop position
  target : d.target (d.tail s.line next? position) = ⟨s.name, s.isLiteral⟩

namespace Vocabulary

/-- The text a directive reads from lies on the next line only for a vocabulary that goes on
there. -/
theorem arguments_eq_tail {v : Vocabulary} {d : Directive} {line : String} {next? : Option String}
    {position : Nat} :
    v.arguments d.marker.toList line.toList next? position =
      d.tail line (if v.continuesOnNextLine then next? else none) position := by
  rw [Directive.tail]
  by_cases blank : Text.trimChars (line.toList.drop (position + d.marker.toList.length)) = []
  · cases next? with
    | none => simp [arguments, blank]
    | some next => cases continues : v.continuesOnNextLine <;> simp [arguments, blank, continues]
  · cases next? <;> simp [arguments, blank]

/-- A site found on a line is read there by a directive of the vocabulary. -/
theorem reads_of_mem_lineSites {v : Vocabulary} {file line : String} {lineNumber : Int}
    {next? : Option String} {s : Site} (h : s ∈ v.lineSites file lineNumber line next?) :
    s.file = file ∧ s.lineNumber = lineNumber ∧ s.line = line ∧
      ∃ d ∈ v.directives, ∃ position,
        d.Reads s (if v.continuesOnNextLine then next? else none) position := by
  obtain ⟨d, mem, found⟩ := List.mem_flatMap.mp h
  obtain ⟨position, occurs, rfl⟩ := List.mem_map.mp found
  refine ⟨rfl, rfl, rfl, d, mem, position, rfl, prefix_drop_of_mem_positions occurs, ?_⟩
  rw [arguments_eq_tail]

end Vocabulary

end RenderTrace
