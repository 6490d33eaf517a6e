import Mathlib.Data.List.Forall2
import RenderTrace.Proofs.Text.Blank
import RenderTrace.ViewName

/-!
# Names with one normal form

The normal form of a name keeps the hint and writes one separator for both, so it is
its own normal form, and two names have the same one exactly when nothing but blanks
around them and the choice of separators after the hint tells them apart.
-/

namespace RenderTrace

namespace ViewName

/-! ## The hint -/

theorem doubleColon_infix_cons {c : Char} {cs : List Char} :
    [':', ':'] <:+: c :: cs ↔ c = ':' ∧ cs.head? = some ':' ∨ [':', ':'] <:+: cs := by
  have head : [':'] <+: cs ↔ cs.head? = some ':' := by
    cases cs with
    | nil => simp
    | cons d cs => simp [List.cons_prefix_cons, eq_comm]
  rw [List.infix_cons_iff, List.cons_prefix_cons, head, eq_comm]

theorem head?_append_colon (hint cs : List Char) :
    (hint ++ ':' :: cs).head? = (hint ++ [':']).head? := by
  cases hint with
  | nil => rfl
  | cons c hint => rfl

/-- A name is cut at its first double colon. -/
theorem splitHint_eq_some_iff {cs hint view : List Char} :
    splitHint cs = some (hint, view) ↔
      cs = hint ++ ':' :: ':' :: view ∧ ¬ [':', ':'] <:+: hint ++ [':'] := by
  fun_induction splitHint cs generalizing hint view with
  | case1 => simp
  | case2 rest =>
      constructor
      · intro found
        cases found
        exact ⟨rfl, by decide⟩
      · rintro ⟨whole, first⟩
        cases hint with
        | nil =>
            cases whole
            rfl
        | cons c hint =>
            obtain ⟨rfl, later⟩ := List.cons_eq_cons.mp whole
            have head : (hint ++ [':']).head? = some ':' := by
              rw [← head?_append_colon hint (':' :: view)]
              exact congrArg List.head? later.symm
            exact absurd (doubleColon_infix_cons.mpr (.inl ⟨rfl, head⟩)) first
  | case3 c rest other ih =>
      rw [Option.map_eq_some_iff]
      constructor
      · rintro ⟨⟨before, after⟩, found, same⟩
        cases same
        obtain ⟨rfl, first⟩ := ih.mp found
        refine ⟨rfl, fun inside => ?_⟩
        obtain ⟨colon, head⟩ | later := doubleColon_infix_cons.mp inside
        · rw [List.append_eq, ← head?_append_colon before (':' :: view)] at head
          obtain ⟨more, equal⟩ := List.head?_eq_some_iff.mp head
          exact other more colon equal
        · exact first later
      · rintro ⟨whole, first⟩
        cases hint with
        | nil =>
            cases whole
            exact absurd rfl (other view rfl)
        | cons d before =>
            cases whole
            refine ⟨(before, view), ih.mpr ⟨rfl, fun later => ?_⟩, rfl⟩
            exact first (List.infix_cons later)

/-- The text up to the first double colon, which belongs to it. -/
def hintPart (cs : List Char) : List Char :=
  match splitHint cs with
  | none => []
  | some (hint, _) => hint ++ [':', ':']

/-- The text after the first double colon, or all of it. -/
def viewPart (cs : List Char) : List Char :=
  match splitHint cs with
  | none => cs
  | some (_, view) => view

theorem hintPart_append_viewPart (cs : List Char) : hintPart cs ++ viewPart cs = cs := by
  rw [hintPart, viewPart]
  cases found : splitHint cs with
  | none => rfl
  | some parts =>
      rw [(splitHint_eq_some_iff.mp found).1]
      simp

theorem normalChars_eq (cs : List Char) :
    normalChars cs = hintPart (Text.trimChars cs) ++ withDots (viewPart (Text.trimChars cs)) := by
  rw [normalChars, hintPart, viewPart]
  cases splitHint (Text.trimChars cs) with
  | none => rfl
  | some parts => simp

/-! ## The normal form of a normal form -/

theorem withDots_withDots (cs : List Char) : withDots (withDots cs) = withDots cs := by
  rw [withDots, withDots, List.map_map]
  apply List.map_congr_left
  intro c _
  by_cases slash : c = '/'
  · simp [slash]
  · simp [slash]

/-- Neither separator is a blank. -/
theorem map_isBlank_withDots (cs : List Char) :
    (withDots cs).map Text.isBlank = cs.map Text.isBlank := by
  rw [withDots, List.map_map]
  apply List.map_congr_left
  intro c _
  by_cases slash : c = '/'
  · simp only [slash, Function.comp_apply]
    decide
  · simp [slash]

theorem splitHint_withDots (cs : List Char) :
    splitHint (withDots cs) = (splitHint cs).map fun parts =>
      (withDots parts.1, withDots parts.2) := by
  fun_induction splitHint cs with
  | case1 => rfl
  | case2 rest => rfl
  | case3 c rest other ih =>
      have behind : ∀ more, (if c = '/' then '.' else c) = ':' → withDots rest ≠ ':' :: more := by
        intro more colon equal
        split at colon
        · exact absurd colon (by decide)
        · cases rest with
          | nil => exact absurd equal (by simp [withDots])
          | cons d rest =>
              have second : (if d = '/' then '.' else d) = ':' := (List.cons.inj equal).1
              split at second
              · exact absurd second (by decide)
              · subst colon second
                exact other rest rfl rfl
      have unfolded : splitHint (withDots (c :: rest)) =
          (splitHint (withDots rest)).map fun parts =>
            ((if c = '/' then '.' else c) :: parts.1, parts.2) := by
        rw [withDots, List.map_cons, splitHint]
        · rfl
        · exact fun more colon equal => behind more colon equal
      rw [unfolded, ih, Option.map_map, Option.map_map]
      rfl

/-- What follows the hint does not move the first double colon. -/
theorem splitHint_normalChars (cs : List Char) :
    splitHint (normalChars cs) = (splitHint (Text.trimChars cs)).map fun parts =>
      (parts.1, withDots parts.2) := by
  rw [normalChars]
  cases found : splitHint (Text.trimChars cs) with
  | none =>
      simp only
      rw [splitHint_withDots, found]
      rfl
  | some parts =>
      obtain ⟨hint, view⟩ := parts
      exact splitHint_eq_some_iff.mpr ⟨rfl, (splitHint_eq_some_iff.mp found).2⟩

theorem hintPart_normalChars (cs : List Char) :
    hintPart (normalChars cs) = hintPart (Text.trimChars cs) := by
  rw [hintPart, hintPart, splitHint_normalChars]
  cases splitHint (Text.trimChars cs) with
  | none => rfl
  | some parts => rfl

theorem viewPart_normalChars (cs : List Char) :
    viewPart (normalChars cs) = withDots (viewPart (Text.trimChars cs)) := by
  rw [viewPart, viewPart, splitHint_normalChars]
  cases found : splitHint (Text.trimChars cs) with
  | none =>
      rw [normalChars, found]
      rfl
  | some parts => rfl

theorem trimChars_normalChars (cs : List Char) :
    Text.trimChars (normalChars cs) = normalChars cs := by
  have blanks : (normalChars cs).map Text.isBlank = (Text.trimChars cs).map Text.isBlank := by
    rw [normalChars_eq, List.map_append, map_isBlank_withDots, ← List.map_append,
      hintPart_append_viewPart]
  apply Text.trimChars_of_isTrimmed
  rw [Text.IsTrimmed, blanks]
  exact Text.isTrimmed_trimChars cs

theorem normalChars_normalChars (cs : List Char) : normalChars (normalChars cs) = normalChars cs := by
  calc
    normalChars (normalChars cs) =
        hintPart (normalChars cs) ++ withDots (viewPart (normalChars cs)) := by
      rw [normalChars_eq (normalChars cs), trimChars_normalChars]
    _ = hintPart (Text.trimChars cs) ++ withDots (viewPart (Text.trimChars cs)) := by
      rw [hintPart_normalChars, viewPart_normalChars, withDots_withDots]
    _ = normalChars cs := (normalChars_eq cs).symm

theorem toList_normal (name : String) : (normal name).toList = normalChars name.toList :=
  String.toList_ofList

theorem normal_normal (name : String) : normal (normal name) = normal name := by
  rw [normal, toList_normal, normalChars_normalChars, normal]

/-! ## When two names have one normal form -/

/-- The characters are the same, or both part segments. -/
def SameOrSeparators (c d : Char) : Prop :=
  c = d ∨ (c = '.' ∨ c = '/') ∧ (d = '.' ∨ d = '/')

/-- Two texts are the same but for the choice of separators. -/
def SameSegments (a b : List Char) : Prop :=
  List.Forall₂ SameOrSeparators a b

theorem withDots_eq_iff {a b : List Char} : withDots a = withDots b ↔ SameSegments a b := by
  rw [SameSegments, ← List.forall₂_eq_eq_eq, withDots, withDots, List.forall₂_map_left_iff,
    List.forall₂_map_right_iff]
  have same : ∀ c d : Char,
      (if c = '/' then '.' else c) = (if d = '/' then '.' else d) ↔ SameOrSeparators c d := by
    intro c d
    rw [SameOrSeparators]
    split <;> split <;> grind
  simp only [same]

theorem normal_eq_iff {a b : String} :
    normal a = normal b ↔
      hintPart (Text.trimChars a.toList) = hintPart (Text.trimChars b.toList) ∧
        SameSegments (viewPart (Text.trimChars a.toList)) (viewPart (Text.trimChars b.toList)) := by
  rw [← withDots_eq_iff, normal, normal, String.ofList_inj]
  constructor
  · intro same
    rw [← hintPart_normalChars, ← hintPart_normalChars, ← viewPart_normalChars,
      ← viewPart_normalChars, same]
    exact ⟨rfl, rfl⟩
  · rintro ⟨hint, view⟩
    rw [normalChars_eq, normalChars_eq, hint, view]

end ViewName
end RenderTrace
