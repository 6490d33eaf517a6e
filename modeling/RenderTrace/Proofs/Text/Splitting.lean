import RenderTrace.Proofs.Text.Line

/-!
# How a text splits into lines

The lines of a text are the one list of parts, none of them empty, that join to the text and
in which a line feed stands at the end of every part but the last, perhaps of the last one too, and
nowhere else. So a line starts right behind the line feed that has its number, there is a line for
each line feed and one more for what may stand behind the last of them, and a text that does
not end within a line is split apart from what follows it. All of this is shown for a text without a
line feed, and for one line in front of a text.
-/

namespace RenderTrace.Text

/-- A text ends within a line when it is not empty and its last character is no line feed. -/
def EndsMidLine (cs : List Char) : Prop :=
  cs ≠ [] ∧ cs.getLast? ≠ some '\n'

instance (cs : List Char) : Decidable (EndsMidLine cs) :=
  inferInstanceAs (Decidable (_ ∧ _))

/-- The position right behind the line feed of a number, counted from one; number zero stands for
the start of the text. -/
def behindBreak? (cs : List Char) : Nat → Option Nat
  | 0 => some 0
  | i + 1 => (cs.idxsOf '\n')[i]?.map (· + 1)

/-- A text splits into parts: they join to the text, none is empty, no line feed stands in one of
them before its last character, and each but the last ends with a line feed. -/
structure SplitsInto (cs : List Char) (parts : List (List Char)) : Prop where
  flatten : parts.flatten = cs
  ne_nil : ∀ part ∈ parts, part ≠ []
  break_not_mem : ∀ part ∈ parts, '\n' ∉ part.dropLast
  ended : ∀ part ∈ parts.dropLast, part.getLast? = some '\n'

/-! ## The end of a text -/

theorem endsMidLine_of_not_mem {a : List Char} (unbroken : '\n' ∉ a) :
    EndsMidLine a ↔ a ≠ [] := by
  refine ⟨And.left, fun nonempty => ⟨nonempty, fun ended => ?_⟩⟩
  exact unbroken (List.mem_of_getLast? ended)

theorem endsMidLine_append_break (a rest : List Char) :
    EndsMidLine (a ++ '\n' :: rest) ↔ EndsMidLine rest := by
  rw [EndsMidLine, List.getLast?_append_cons]
  cases rest with
  | nil => simp [EndsMidLine]
  | cons c rest => simp [EndsMidLine, List.getLast?_cons_cons]

theorem length_charLines (cs : List Char) :
    (charLines cs).length = cs.count '\n' + if EndsMidLine cs then 1 else 0 := by
  induction cs using lineInduction with
  | last a unbroken =>
      rw [List.count_eq_zero.mpr unbroken, Nat.zero_add]
      by_cases empty : a = []
      · subst empty
        rfl
      · rw [charLines_of_not_mem unbroken empty,
          if_pos ((endsMidLine_of_not_mem unbroken).mpr empty), List.length_singleton]
  | cons a rest unbroken ih =>
      rw [charLines_append_break unbroken, List.length_cons, ih, List.count_append,
        List.count_eq_zero.mpr unbroken, List.count_cons_self]
      simp only [endsMidLine_append_break]
      omega

/-- A text that does not end within a line is split apart from what follows it. -/
theorem charLines_append {a : List Char} (whole : ¬ EndsMidLine a) (b : List Char) :
    charLines (a ++ b) = charLines a ++ charLines b := by
  induction a using lineInduction with
  | last a unbroken =>
      rw [endsMidLine_of_not_mem unbroken, not_not] at whole
      rw [whole, List.nil_append, charLines, List.nil_append]
  | cons a rest unbroken ih =>
      rw [endsMidLine_append_break] at whole
      rw [List.append_assoc, List.cons_append, charLines_append_break unbroken, ih whole,
        charLines_append_break unbroken, List.cons_append]

/-! ## Where lines start -/

/-- Behind a first line the line feeds have one number more. -/
theorem behindBreak?_behind_break {a : List Char} (unbroken : '\n' ∉ a) (rest : List Char)
    (i : Nat) :
    behindBreak? (a ++ '\n' :: rest) (i + 1) =
      (behindBreak? rest i).map (a.length + 1 + ·) := by
  have none : a.idxsOf '\n' = [] :=
    List.idxsOf_eq_nil_iff.mpr fun c mem => by
      rw [beq_eq_false_iff_ne]
      rintro rfl
      exact unbroken mem
  rw [behindBreak?, List.idxsOf_append, none, List.nil_append, List.idxsOf_cons,
    if_pos (beq_self_eq_true _), Nat.zero_add]
  cases i with
  | zero => simp [behindBreak?]
  | succ i =>
      rw [List.getElem?_cons_succ, List.idxsOf_start, List.getElem?_map, behindBreak?]
      cases (rest.idxsOf '\n')[i]? with
      | none => rfl
      | some k =>
          simp only [Option.map_some, Option.some_inj]
          omega

/-- The lines before a line reach up to the line feed that has its number. -/
theorem behindBreak?_eq_length_flatten_take {cs : List Char} {i : Nat}
    (within : i < (charLines cs).length) :
    behindBreak? cs i = some ((charLines cs).take i).flatten.length := by
  induction cs using lineInduction generalizing i with
  | last a unbroken =>
      rw [length_charLines, List.count_eq_zero.mpr unbroken] at within
      obtain rfl : i = 0 := by
        split at within <;> omega
      rfl
  | cons a rest unbroken ih =>
      cases i with
      | zero => rfl
      | succ i =>
          rw [charLines_append_break unbroken] at within ⊢
          have later := ih (Nat.lt_of_succ_lt_succ within)
          rw [behindBreak?_behind_break unbroken, later, List.take_succ_cons, List.flatten_cons,
            List.length_append, List.length_append, List.length_singleton, Option.map_some]

/-! ## The parts -/

theorem forall_mem_dropLast_cons {α : Type} {P : α → Prop} {x : α} {l : List α} :
    (∀ y ∈ (x :: l).dropLast, P y) ↔ (l ≠ [] → P x) ∧ ∀ y ∈ l.dropLast, P y := by
  cases l with
  | nil => simp
  | cons y l =>
      rw [List.dropLast_cons_cons, List.forall_mem_cons]
      simp only [ne_eq, List.cons_ne_nil, not_false_eq_true, forall_const]

theorem splitsInto_charLines (cs : List Char) : SplitsInto cs (charLines cs) := by
  induction cs using lineInduction with
  | last a unbroken =>
      by_cases empty : a = []
      · subst empty
        exact ⟨rfl, nofun, nofun, nofun⟩
      · rw [charLines_of_not_mem unbroken empty]
        refine ⟨List.flatten_singleton, ?_, ?_, nofun⟩
        · exact List.forall_mem_singleton.mpr empty
        · exact List.forall_mem_singleton.mpr fun mem =>
            unbroken ((List.dropLast_sublist a).subset mem)
  | cons a rest unbroken ih =>
      rw [charLines_append_break unbroken]
      refine ⟨?_, ?_, ?_, ?_⟩
      · rw [List.flatten_cons, ih.flatten, List.append_assoc, List.singleton_append]
      · exact List.forall_mem_cons.mpr ⟨List.concat_ne_nil _ _, ih.ne_nil⟩
      · rw [List.forall_mem_cons, List.dropLast_concat]
        exact ⟨unbroken, ih.break_not_mem⟩
      · exact forall_mem_dropLast_cons.mpr ⟨fun _ => List.getLast?_concat, ih.ended⟩

theorem SplitsInto.tail {cs part : List Char} {later : List (List Char)}
    (splits : SplitsInto cs (part :: later)) : SplitsInto later.flatten later where
  flatten := rfl
  ne_nil := (List.forall_mem_cons.mp splits.ne_nil).2
  break_not_mem := (List.forall_mem_cons.mp splits.break_not_mem).2
  ended := (forall_mem_dropLast_cons.mp splits.ended).2

/-- There is one way to split a text. -/
theorem SplitsInto.eq_charLines {cs : List Char} {parts : List (List Char)}
    (splits : SplitsInto cs parts) : parts = charLines cs := by
  induction parts generalizing cs with
  | nil =>
      rw [← splits.flatten]
      rfl
  | cons part later ih =>
      obtain ⟨nonempty, -⟩ := List.forall_mem_cons.mp splits.ne_nil
      obtain ⟨a, c, rfl⟩ := (List.eq_nil_or_concat' part).resolve_left nonempty
      have unbroken : '\n' ∉ a := by
        have inner := splits.break_not_mem _ List.mem_cons_self
        rwa [List.dropLast_concat] at inner
      by_cases ended : c = '\n'
      · rw [← splits.flatten, ended, List.flatten_cons, List.append_assoc, List.singleton_append,
          charLines_append_break unbroken, ← ih splits.tail]
      · -- A part that no line feed ends is the last one.
        have alone : later = [] := by
          by_contra more
          have last := (forall_mem_dropLast_cons.mp splits.ended).1 more
          rw [List.getLast?_concat, Option.some_inj] at last
          exact ended last
        have plain : '\n' ∉ a ++ [c] := by
          simp [unbroken, Ne.symm ended]
        rw [← splits.flatten, alone, List.flatten_singleton, charLines_of_not_mem plain nonempty]

theorem splitsInto_iff {cs : List Char} {parts : List (List Char)} :
    SplitsInto cs parts ↔ parts = charLines cs := by
  refine ⟨SplitsInto.eq_charLines, ?_⟩
  rintro rfl
  exact splitsInto_charLines cs

/-! ## Lines as texts -/

theorem map_toList_lines (text : String) :
    (lines text).map String.toList = charLines text.toList := by
  have characters : String.toList ∘ String.ofList = id := funext fun _ => String.toList_ofList
  rw [lines, List.map_map, characters, List.map_id]

theorem length_lines (text : String) : (lines text).length = (charLines text.toList).length :=
  List.length_map _

/-- A text splits into its lines and into no other list of texts. Each line starts right behind the
line feed that has its number, where the lines before it end. There are as many lines as line feeds,
and one more when the text ends within a line. The lines of a text that does not end within a line,
and of what follows it, are those of the one and then those of the other. -/
theorem lines_splitsInto (text : String) :
    (∀ parts : List String,
      SplitsInto text.toList (parts.map String.toList) ↔ parts = lines text) ∧
    (∀ i < (lines text).length,
      behindBreak? text.toList i = some (String.join ((lines text).take i)).length) ∧
    (lines text).length = text.toList.count '\n' + (if EndsMidLine text.toList then 1 else 0) ∧
    (¬ EndsMidLine text.toList →
      ∀ rest : String, lines (text ++ rest) = lines text ++ lines rest) := by
  refine ⟨fun parts => ?_, fun i within => ?_, ?_, fun whole rest => ?_⟩
  · have texts : Function.Injective (List.map String.toList) :=
      List.map_injective_iff.mpr fun _ _ => String.toList_injective
    rw [splitsInto_iff, ← map_toList_lines, texts.eq_iff]
  · rw [length_lines] at within
    rw [behindBreak?_eq_length_flatten_take within, ← String.length_toList, String.toList_join,
      List.flatMap_def, List.map_take, map_toList_lines]
  · rw [length_lines, length_charLines]
  · rw [lines, String.toList_append, charLines_append whole, List.map_append, lines, lines]

/-- A text with a blank line and with a line separator that breaks no line. -/
def blankLineText : String :=
  "a\n\nb\u2028c"

theorem lines_splitsInto_blankLineText :
    lines blankLineText = ["a\n", "\n", "b\u2028c"] ∧
      2 < (lines blankLineText).length ∧ behindBreak? blankLineText.toList 2 = some 3 ∧
      ¬ EndsMidLine "a\n".toList ∧
      lines ("a\n" ++ blankLineText) = lines "a\n" ++ lines blankLineText := by
  obtain ⟨only, starts, -, -⟩ := lines_splitsInto blankLineText
  obtain ⟨-, -, -, apart⟩ := lines_splitsInto "a\n"
  have splits : SplitsInto blankLineText.toList (["a\n", "\n", "b\u2028c"].map String.toList) :=
    ⟨by decide, by decide, by decide, by decide⟩
  have within : 2 < (lines blankLineText).length := by decide
  have whole : ¬ EndsMidLine "a\n".toList := by decide
  exact ⟨((only _).mp splits).symm, within, starts 2 within, whole, apart whole blankLineText⟩

end RenderTrace.Text
