import RenderTrace.Proofs.Argument.Split
import RenderTrace.Proofs.Site
import RenderTrace.Proofs.Text.Blank

/-!
# Sites of written calls

A call written on a line, with arguments that can stand between commas as they are, is
found, and the argument its directive chooses names the view.
-/

namespace RenderTrace

open Text

/-! ## Blanks around arguments -/

namespace Argument

theorem isBlank_eq_false {c : Char} (special : isMark c ∨ isOpener c ∨ isCloser c ∨ c = ',') :
    isBlank c = false := by
  simp only [isMark, isQuote, isOpener, isCloser, Bool.or_eq_true, beq_iff_eq] at special
  rcases special with (((((rfl | rfl) | rfl) | rfl) | rfl) | rfl | rfl) |
    ((rfl | rfl) | rfl) | ((rfl | rfl) | rfl) | rfl <;> decide

/-- A blank is neither a mark nor a bracket nor a comma. -/
theorem plain_of_isBlank {c : Char} (blank : isBlank c) :
    isMark c = false ∧ isOpener c = false ∧ isCloser c = false ∧ c ≠ ',' := by
  have not_special := mt (isBlank_eq_false (c := c))
  simp only [blank, Bool.true_eq_false, not_false_eq_true, true_imp_iff, not_or,
    Bool.not_eq_true] at not_special
  exact not_special

theorem filter_isMark_eq_self {cs : List Char} (plain : ∀ c ∈ cs, isMark c = false) :
    cs.filter (fun c => !isMark c) = cs :=
  List.filter_eq_self.mpr fun c mem => by simp [plain c mem]

/-- Blanks around an argument are no part of the identifier it names. -/
theorem identifier_trimChars (cs : List Char) : identifier (trimChars cs) = identifier cs := by
  obtain ⟨front, back, before, after, whole⟩ := exists_trimChars cs
  have filtered := congrArg (List.filter fun c => !isMark c) whole
  rw [List.filter_append, List.filter_append,
    filter_isMark_eq_self fun c mem => (plain_of_isBlank (before c mem)).1,
    filter_isMark_eq_self fun c mem => (plain_of_isBlank (after c mem)).1] at filtered
  rw [identifier, identifier, filtered, trimChars_append_of_blank_left before,
    trimChars_append_of_blank_right after]

theorem isLiteral_trimChars (cs : List Char) : isLiteral (trimChars cs) = isLiteral cs := by
  rw [isLiteral, isLiteral, trimChars_of_isTrimmed (isTrimmed_trimChars cs)]

/-- Blanks before a text belong to its first argument. -/
theorem splitFrom_append_of_blank {front : List Char} (blank : ∀ c ∈ front, isBlank c)
    (cs : List Char) :
    splitFrom .start (front ++ cs) =
      (front ++ (splitFrom .start cs).1, (splitFrom .start cs).2) := by
  refine splitFrom_append ?_ cs
  induction front with
  | nil => rfl
  | cons c front ih =>
      rw [List.forall_mem_cons] at blank
      refine State.run?_cons_eq_some_iff.mpr ⟨_, ?_, ih blank.2⟩
      obtain ⟨noMark, noOpener, noCloser, noComma⟩ := plain_of_isBlank blank.1
      have noQuote : isQuote c = false := by
        rw [isMark, Bool.or_eq_false_iff] at noMark
        exact noMark.2
      simp [State.role, State.start, noQuote, noOpener, noCloser, noComma]

end Argument

namespace Target

theorem ofArgument_trimChars (cs : List Char) : ofArgument (trimChars cs) = ofArgument cs := by
  rw [ofArgument, ofArgument, Argument.identifier_trimChars, Argument.isLiteral_trimChars]

theorem ofArgument_append_of_blank {front : List Char} (blank : ∀ c ∈ front, isBlank c)
    (cs : List Char) : ofArgument (front ++ cs) = ofArgument cs := by
  rw [← ofArgument_trimChars, trimChars_append_of_blank_left blank, ofArgument_trimChars]

/-- An argument that is a name in quotes names just that, as a literal. -/
theorem ofArgument_quoted {cs name : List Char} {q : Char} (quote : isQuote q)
    (quoted : trimChars cs = q :: (name ++ [q])) (plain : ∀ c ∈ name, Argument.isMark c = false) :
    ofArgument cs = ⟨String.ofList (trimChars name), true⟩ := by
  have mark : Argument.isMark q := by simp [Argument.isMark, quote]
  have identifier : Argument.identifier cs = trimChars name := by
    have kept := Argument.filter_isMark_eq_self plain
    rw [← Argument.identifier_trimChars, quoted, Argument.identifier]
    simp [mark, kept]
  have literal : Argument.isLiteral cs := by
    have absent : q ∉ name := fun mem => absurd (mark.symm.trans (plain q mem)) nofun
    simp [Argument.isLiteral, quoted, quote, absent]
  rw [ofArgument, identifier, literal]

end Target

/-- The argument a rule chooses among those written: the first one; the second one, or the empty
text when there is none; or the first element of an array that is the first argument. -/
inductive Chosen : ArgumentRule → List (List Char) → List Char → Prop
  | first {arg : List Char} {others : List (List Char)} : Chosen .first (arg :: others) arg
  | second {arg chosen : List Char} {others : List (List Char)} :
      Chosen .second (arg :: chosen :: others) chosen
  | noSecond {arg : List Char} : Chosen .second [arg] []
  | element {arg e : List Char} {others es : List (List Char)} :
      trimChars arg = '[' :: ([','].intercalate (e :: es) ++ [']']) →
      Argument.IsSelfContained e → Chosen .firstOfArray (arg :: others) e

theorem Chosen.args_ne_nil {rule : ArgumentRule} {args : List (List Char)} {chosen : List Char}
    (choice : Chosen rule args chosen) : args ≠ [] := by
  cases choice <;> exact List.cons_ne_nil _ _

theorem ArgumentRule.choose_of_chosen {rule : ArgumentRule} {cs chosen : List Char}
    {args : List (List Char)} (split : Argument.split cs = args) (choice : Chosen rule args chosen) :
    rule.choose cs = chosen := by
  cases choice with
  | first => exact (List.cons_eq_cons.mp split).1
  | second => rw [choose, split]; rfl
  | noSecond => rw [choose, split]; rfl
  | @element arg e others es array own =>
      have first : Argument.first cs = arg := (List.cons_eq_cons.mp split).1
      rw [choose, first, array]
      cases es with
      | nil => simpa using Argument.first_append own (.inr rfl)
      | cons next es =>
          rw [List.intercalate_cons_of_ne_nil (List.cons_ne_nil _ _), List.append_assoc,
            List.append_assoc]
          exact Argument.first_append own (.inl rfl)

namespace Directive

theorem target_append_of_blank (d : Directive) {front : List Char} (blank : ∀ c ∈ front, isBlank c)
    (cs : List Char) : d.target (front ++ cs) = d.target cs := by
  have first : Argument.first (front ++ cs) = front ++ Argument.first cs := by
    rw [Argument.first, Argument.splitFrom_append_of_blank blank, Argument.first]
  rw [target, target]
  cases d.rule with
  | first =>
      rw [ArgumentRule.choose, first, ArgumentRule.choose, Target.ofArgument_append_of_blank blank]
  | second =>
      rw [ArgumentRule.choose, Argument.split, Argument.splitFrom_append_of_blank blank]
      rfl
  | firstOfArray =>
      rw [ArgumentRule.choose, first, trimChars_append_of_blank_left blank, ArgumentRule.choose]

theorem target_trimStart (d : Directive) (cs : List Char) :
    d.target (trimStart cs) = d.target cs := by
  have blank : ∀ c ∈ cs.takeWhile isBlank, isBlank c := fun _ => List.mem_takeWhile_imp
  rw [← d.target_append_of_blank blank, trimStart, List.takeWhile_append_dropWhile]

/-- The text of a written call names the chosen argument, whatever stands after it. -/
theorem target_written (d : Directive) {args : List (List Char)} {chosen : List Char}
    (own : ∀ arg ∈ args, Argument.IsSelfContained arg) (choice : Chosen d.rule args chosen)
    (after : List Char) :
    d.target (trimChars ([','].intercalate args ++ ')' :: after)) = Target.ofArgument chosen := by
  have solid : isBlank ')' = false := by decide
  have cut : Argument.Cut ([','].intercalate args ++ ')' :: trimEnd after) args _ :=
    .of_intercalate choice.args_ne_nil own rfl _
  calc d.target (trimChars ([','].intercalate args ++ ')' :: after))
      = d.target (trimStart ([','].intercalate args ++ ')' :: trimEnd after)) := by
        rw [trimChars_append_cons solid]
    _ = d.target ([','].intercalate args ++ ')' :: trimEnd after) := d.target_trimStart _
    _ = Target.ofArgument chosen := by
        rw [target, ArgumentRule.choose_of_chosen cut.split_eq choice]

end Directive

namespace Vocabulary

/-- Arguments with a solid character are read on the line of their marker. -/
theorem arguments_append {front marker a b : List Char} {c : Char} (solid : isBlank c = false)
    (v : Vocabulary) (next? : Option String) :
    v.arguments marker (front ++ (marker ++ (a ++ c :: b))) next? front.length =
      trimChars (a ++ c :: b) := by
  have tail : (front ++ (marker ++ (a ++ c :: b))).drop (front.length + marker.length) =
      a ++ c :: b := by
    rw [← List.drop_drop, List.drop_left, List.drop_left]
  have some : trimChars (a ++ c :: b) ≠ [] := by
    rw [trimChars_append_cons solid, trimStart, dropWhile_isBlank_append_cons solid]
    exact List.append_ne_nil_of_right_ne_nil _ (List.cons_ne_nil _ _)
  cases next? <;> simp [arguments, tail, some]

/-- What one directive finds on a line is found by every search that looks for it. -/
theorem lineSites_subset {v : Vocabulary} {d : Directive} (looked : d ∈ v.directives)
    (file : String) (lineNumber : Int) (line : String) (next? : Option String) :
    ({ v with directives := [d] } : Vocabulary).lineSites file lineNumber line next? ⊆
      v.lineSites file lineNumber line next? := by
  intro s mem
  obtain ⟨same, alone, found⟩ := List.mem_flatMap.mp mem
  obtain rfl := List.mem_singleton.mp alone
  exact List.mem_flatMap.mpr ⟨same, looked, found⟩

/-- A call written on a line is found at the first occurrence of its marker there, and the argument
that its directive chooses names the view. A name in quotes is found as it is written, without the
blanks around it. -/
theorem sites_written {v : Vocabulary} {d : Directive} (looked : d ∈ v.directives)
    {lines : List String} {i : Nat} {line : String} (there : lines[i]? = some line)
    {before after : List Char} {args : List (List Char)} {chosen : List Char}
    (written : line.toList =
      before ++ (d.marker.toList ++ ([','].intercalate args ++ ')' :: after)))
    (first : ∀ k < before.length, ¬ d.marker.toList <+: line.toList.drop k)
    (own : ∀ arg ∈ args, Argument.IsSelfContained arg) (choice : Chosen d.rule args chosen)
    (file : String) (start : Int) :
    ∃ s ∈ v.sites file start lines,
      (({ v with directives := [d] } : Vocabulary).lineSites file (start + i) line
        lines[i + 1]?).head? = some s ∧
      s.file = file ∧ s.lineNumber = start + i ∧ s.line = line ∧ s.directive = d.marker ∧
      (⟨s.name, s.isLiteral⟩ : Target) = Target.ofArgument chosen ∧
      ∀ q name, isQuote q → trimChars chosen = q :: (name ++ [q]) →
        (∀ c ∈ name, Argument.isMark c = false) →
        s.name = String.ofList (trimChars name) ∧ s.isLiteral := by
  have found : Occurrence.first? d.marker.toList line.toList = some before.length := by
    refine Occurrence.first?_of_prefix ?_ first
    rw [written, List.drop_left]
    exact List.prefix_append _ _
  have target : d.target (v.arguments d.marker.toList line.toList lines[i + 1]? before.length) =
      Target.ofArgument chosen := by
    rw [written, arguments_append rfl, d.target_written own choice]
  let s : Site :=
    { name := (Target.ofArgument chosen).name
      file := file
      lineNumber := start + i
      directive := d.marker
      line := line
      isLiteral := (Target.ofArgument chosen).isLiteral }
  have alone : (({ v with directives := [d] } : Vocabulary).lineSites file (start + i) line
      lines[i + 1]?).head? = some s := by
    rw [lineSites, List.flatMap_singleton, List.head?_map, head?_positions, found, Option.map_some]
    dsimp only [s]
    rw [← target]
    rfl
  have mem := lineSites_subset looked _ _ _ _ (List.mem_of_head? alone)
  refine ⟨s, mem_sites.mpr ⟨i, line, there, mem⟩, alone, rfl, rfl, rfl, rfl, rfl, ?_⟩
  intro q name quote quoted plain
  have literal := Target.ofArgument_quoted quote quoted plain
  exact ⟨congrArg Target.name literal, congrArg Target.isLiteral literal⟩

/-- A line with an array whose first element is a name with a blank before it, and with another
marker that no call follows. -/
def includeFirstLine : String :=
  "<p>@includeFirst( [\x22 a.b\x22, pick(']')], [1, 2]) @includeFirst("

theorem sites_written_includeFirstLine :
    ∃ s ∈ (ofTemplates Directive.inclusions).sites "page" 1 ["<br>", includeFirstLine],
      s.lineNumber = 2 ∧ s.name = "a.b" ∧ s.isLiteral := by
  have array : trimChars " [\x22 a.b\x22, pick(']')]".toList =
      '[' :: ([','].intercalate ["\x22 a.b\x22".toList, " pick(']')".toList] ++ [']']) := by
    decide
  have written : includeFirstLine.toList = "<p>".toList ++ ("@includeFirst(".toList ++
      ([','].intercalate [" [\x22 a.b\x22, pick(']')]".toList, " [1, 2]".toList] ++
        ')' :: " @includeFirst(".toList)) := by
    decide
  have there : ["<br>", includeFirstLine][1]? = some includeFirstLine := rfl
  obtain ⟨s, mem, -, -, lineNumber, -, -, -, quoted⟩ :=
    sites_written (v := ofTemplates Directive.inclusions) (d := ⟨"@includeFirst(", .firstOfArray⟩)
      (by decide) there written (by decide) (by decide) (.element array (by decide)) "page" 1
  have plain : ∀ c ∈ " a.b".toList, Argument.isMark c = false := by
    simp [Argument.isMark, isQuote, singleQuote, doubleQuote]
  obtain ⟨name, literal⟩ := quoted doubleQuote " a.b".toList rfl (by decide) plain
  exact ⟨s, mem, lineNumber, name, literal⟩

end Vocabulary

end RenderTrace
