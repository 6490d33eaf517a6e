import RenderTrace.Proofs.Site.Occurrence
import RenderTrace.Template

/-!
# The sites of a whole template

A template is searched line by line, yet its sites are those of its whole text: for every
directive the leftmost occurrences of its marker that do not overlap, each on the line
on which it lies. They are ordered by line, then by directive, then by position.
-/

namespace RenderTrace

open Text

/-- The site that a directive reads at a position of a text, the first line of which has the given
number: the name is read from the rest of the line behind the marker. -/
def Directive.siteAt (d : Directive) (file : String) (start : Int) (text : List Char) (k : Nat) :
    Site :=
  let target := d.target (trimChars (upToBreak (text.drop (k + d.marker.toList.length))))
  { name := target.name
    file := file
    lineNumber := start + breaksBefore text k
    directive := d.marker
    line := String.ofList (lineAt text k)
    isLiteral := target.isLiteral }

namespace Occurrence

/-- The occurrences of a marker in a text that lie below so many lines. -/
def onLine (marker text : List Char) (i : Nat) : List Nat :=
  (all marker text).filter fun k => breaksBefore text k = i

section
variable {marker : List Char} (nonempty : marker ≠ []) {a : List Char} (unbroken : '\n' ∉ a)
include nonempty unbroken

theorem breaksBefore_of_mem_all (tail : List Char) {k : Nat} (mem : k ∈ all marker a) :
    breaksBefore (a ++ tail) k = 0 :=
  have ends := length_le_of_mem_all nonempty mem
  breaksBefore_append unbroken (by omega) tail

theorem onLine_of_not_mem : onLine marker a 0 = all marker a := by
  apply List.filter_eq_self.mpr
  intro k mem
  have first := breaksBefore_of_mem_all nonempty unbroken [] mem
  rw [List.append_nil] at first
  exact decide_eq_true first

variable (solid : '\n' ∉ marker) (rest : List Char)
include solid

theorem onLine_zero : onLine marker (a ++ '\n' :: rest) 0 = all marker a := by
  have first : ∀ k ∈ all marker a, decide (breaksBefore (a ++ '\n' :: rest) k = 0) = true :=
    fun k mem => decide_eq_true (breaksBefore_of_mem_all nonempty unbroken _ mem)
  rw [onLine, all_append_break nonempty solid, List.filter_append, List.filter_eq_self.mpr first,
    List.filter_map]
  simp [breaksBefore_behind_break unbroken]

theorem onLine_succ (i : Nat) : onLine marker (a ++ '\n' :: rest) (i + 1) =
    (onLine marker rest i).map fun k => a.length + 1 + k := by
  have first : ∀ k ∈ all marker a, ¬ decide (breaksBefore (a ++ '\n' :: rest) k = i + 1) = true := by
    intro k mem
    rw [breaksBefore_of_mem_all nonempty unbroken _ mem]
    simp
  rw [onLine, all_append_break nonempty solid, List.filter_append, List.filter_eq_nil_iff.mpr first,
    List.nil_append, List.filter_map]
  simp only [Function.comp_def, breaksBefore_behind_break unbroken, Nat.add_right_cancel_iff, onLine]

end

/-- The lines of a text share out the occurrences of a marker. -/
theorem flatMap_onLine {marker : List Char} (nonempty : marker ≠ []) (solid : '\n' ∉ marker)
    (text : List Char) :
    (List.range (text.count '\n' + 1)).flatMap (onLine marker text) = all marker text := by
  induction text using lineInduction with
  | last a unbroken =>
      rw [List.count_eq_zero.mpr unbroken]
      simp [onLine_of_not_mem nonempty unbroken]
  | cons a rest unbroken ih =>
      calc (List.range ((a ++ '\n' :: rest).count '\n' + 1)).flatMap (onLine marker (a ++ '\n' :: rest))
          = onLine marker (a ++ '\n' :: rest) 0 ++ (List.range (rest.count '\n' + 1)).flatMap
              fun i => onLine marker (a ++ '\n' :: rest) (i + 1) :=
            flatMap_range_append_break unbroken rest _
        _ = all marker a ++ (List.range (rest.count '\n' + 1)).flatMap
              fun i => (onLine marker rest i).map fun k => a.length + 1 + k := by
            simp only [onLine_zero nonempty unbroken solid, onLine_succ nonempty unbroken solid]
        _ = all marker a ++ (all marker rest).map fun k => a.length + 1 + k := by
            rw [← List.map_flatMap, ih]
        _ = all marker (a ++ '\n' :: rest) := (all_append_break nonempty solid a rest).symm

end Occurrence

namespace Directive

theorem siteAt_behind_break {a : List Char} (unbroken : '\n' ∉ a) (d : Directive) (file : String)
    (start : Int) (rest : List Char) (k : Nat) :
    d.siteAt file start (a ++ '\n' :: rest) (a.length + 1 + k) =
      d.siteAt file (start + 1) rest k := by
  have number : start + ((breaksBefore rest k + 1 : Nat) : Int) =
      start + 1 + (breaksBefore rest k : Int) := by omega
  simp only [siteAt, breaksBefore_behind_break unbroken, lineAt_behind_break, Nat.add_assoc _ k,
    drop_behind_break, number]

end Directive

namespace Vocabulary

/-- The markers that the search can look for line by line: none is empty, and none holds a line
feed. -/
def HasLineMarkers (directives : List Directive) : Prop :=
  ∀ d ∈ directives, d.marker.toList ≠ [] ∧ '\n' ∉ d.marker.toList

instance (directives : List Directive) : Decidable (HasLineMarkers directives) :=
  inferInstanceAs (Decidable (∀ _ ∈ directives, _ ∧ _))

/-- What stands behind the first line: nothing, or a line feed and more. -/
def IsBreakOrEnd (tail : List Char) : Prop :=
  tail = [] ∨ ∃ rest, tail = '\n' :: rest

theorem arguments_ofTemplates (directives : List Directive) (marker cs : List Char)
    (next? : Option String) (k : Nat) :
    (ofTemplates directives).arguments marker cs next? k =
      trimChars (cs.drop (k + marker.length)) := by
  cases next? <;> simp [arguments, ofTemplates]

variable {directives : List Directive} (markers : HasLineMarkers directives)
include markers

/-- The sites of the first line of a text, which ends with a line feed or with the text. -/
theorem lineSites_first {a : List Char} (unbroken : '\n' ∉ a) {tail : List Char}
    (stops : IsBreakOrEnd tail) (file : String) (start : Int) (next? : Option String) :
    (ofTemplates directives).lineSites file start (String.ofList (a ++ upToBreak tail)) next? =
      directives.flatMap fun d =>
        (Occurrence.all d.marker.toList a).map (d.siteAt file start (a ++ tail)) := by
  apply List.flatMap_congr
  intro d mem
  obtain ⟨nonempty, solid⟩ := markers d mem
  have found : Occurrence.all d.marker.toList (a ++ upToBreak tail) =
      Occurrence.all d.marker.toList a := by
    obtain rfl | ⟨rest, rfl⟩ := stops
    · exact congrArg _ (List.append_nil a)
    · rw [upToBreak_break, Occurrence.all_append_break nonempty solid, Occurrence.all_nil nonempty,
        List.map_nil, List.append_nil]
  have every : ∀ cs, (ofTemplates directives).positions d.marker.toList cs =
      Occurrence.all d.marker.toList cs := fun _ => if_pos rfl
  rw [String.toList_ofList, every, found]
  apply List.map_congr_left
  intro k mem
  have ends := Occurrence.length_le_of_mem_all nonempty mem
  have within : k ≤ a.length := by omega
  have number : start = start + ((0 : Nat) : Int) := by omega
  simp only [arguments_ofTemplates, Directive.siteAt, breaksBefore_append unbroken within,
    lineAt_append unbroken within, upToBreak_drop_append unbroken ends, ← number]

/-- The sites on one line of a text: for each directive those at the occurrences of its marker in the
whole text that lie on that line. -/
def sitesOnLine (directives : List Directive) (file : String) (start : Int) (text : List Char)
    (i : Nat) : List Site :=
  directives.flatMap fun d =>
    (Occurrence.onLine d.marker.toList text i).map (d.siteAt file start text)

section
variable {a : List Char} (unbroken : '\n' ∉ a) (file : String) (start : Int) (rest : List Char)
include unbroken

theorem sitesOnLine_of_not_mem : sitesOnLine directives file start a 0 =
    (ofTemplates directives).lineSites file start (String.ofList a) none := by
  have whole := lineSites_first markers unbroken (.inl rfl) file start none
  have nothing : upToBreak [] = [] := rfl
  rw [nothing, List.append_nil] at whole
  rw [whole]
  apply List.flatMap_congr
  intro d mem
  rw [Occurrence.onLine_of_not_mem (markers d mem).1 unbroken]

theorem sitesOnLine_zero (next? : Option String) :
    sitesOnLine directives file start (a ++ '\n' :: rest) 0 =
      (ofTemplates directives).lineSites file start (String.ofList (a ++ ['\n'])) next? := by
  rw [← upToBreak_break rest, lineSites_first markers unbroken (.inr ⟨rest, rfl⟩)]
  apply List.flatMap_congr
  intro d mem
  obtain ⟨nonempty, solid⟩ := markers d mem
  rw [Occurrence.onLine_zero nonempty unbroken solid]

theorem sitesOnLine_succ (i : Nat) :
    sitesOnLine directives file start (a ++ '\n' :: rest) (i + 1) =
      sitesOnLine directives file (start + 1) rest i := by
  apply List.flatMap_congr
  intro d mem
  obtain ⟨nonempty, solid⟩ := markers d mem
  rw [Occurrence.onLine_succ nonempty unbroken solid, List.map_map]
  apply List.map_congr_left
  intro k _
  exact d.siteAt_behind_break unbroken file start rest k

end

/-- A line by line search finds the sites of the whole text, line after line. -/
theorem sites_charLines (file : String) (start : Int) (text : List Char) :
    (ofTemplates directives).sites file start ((charLines text).map String.ofList) =
      (List.range (text.count '\n' + 1)).flatMap (sitesOnLine directives file start text) := by
  induction text using lineInduction generalizing start with
  | last a unbroken =>
      rw [List.count_eq_zero.mpr unbroken, Nat.zero_add, List.range_one, List.flatMap_singleton]
      by_cases empty : a = []
      · subst empty
        symm
        apply List.flatMap_eq_nil_iff.mpr
        intro d mem
        have nonempty := (markers d mem).1
        rw [Occurrence.onLine_of_not_mem nonempty unbroken, Occurrence.all_nil nonempty, List.map_nil]
      · rw [charLines_of_not_mem unbroken empty, List.map_singleton, sites, sites, List.append_nil,
          List.head?_nil, sitesOnLine_of_not_mem markers unbroken]
  | cons a rest unbroken ih =>
      let v := ofTemplates directives
      let later := (charLines rest).map String.ofList
      calc v.sites file start ((charLines (a ++ '\n' :: rest)).map String.ofList)
          = v.lineSites file start (String.ofList (a ++ ['\n'])) later.head? ++
              v.sites file (start + 1) later := by
            rw [charLines_append_break unbroken, List.map_cons, sites]
        _ = sitesOnLine directives file start (a ++ '\n' :: rest) 0 ++
              (List.range (rest.count '\n' + 1)).flatMap
                (sitesOnLine directives file (start + 1) rest) := by
            rw [sitesOnLine_zero markers unbroken, ih]
        _ = sitesOnLine directives file start (a ++ '\n' :: rest) 0 ++
              (List.range (rest.count '\n' + 1)).flatMap fun i =>
                sitesOnLine directives file start (a ++ '\n' :: rest) (i + 1) := by
            simp only [sitesOnLine_succ markers unbroken]
        _ = _ := (flatMap_range_append_break unbroken rest _).symm

end Vocabulary

namespace Templates

/-- The sites of a view are those of the whole text of its template: for each directive they stand at
the leftmost occurrences of its marker in the text that do not overlap, each on the line on which the
occurrence lies. They are ordered by line, then by directive, then by position, and no occurrence is
lost between two lines. -/
theorem inclusions_wholeText {templates : Templates} {directives : List Directive}
    (searched : templates.vocabulary = .ofTemplates directives)
    (markers : Vocabulary.HasLineMarkers directives) {files : Files} {name : String} {path : Path}
    (found : templates.find? (ViewName.normal name) = some path) {text : String}
    (read : files.text path = .ok text) :
    ∃ places : Directive → List Nat,
      templates.inclusions files name =
        (List.range (text.toList.count '\n' + 1)).flatMap (fun i => directives.flatMap fun d =>
          ((places d).filter fun k => breaksBefore text.toList k = i).map
            (d.siteAt (name ++ templates.suffix) 1 text.toList)) ∧
      ∀ d ∈ directives,
        Occurrence.Leftmost d.marker.toList text.toList 0 (places d) ∧
        (List.range (text.toList.count '\n' + 1)).flatMap (fun i =>
          (places d).filter fun k => breaksBefore text.toList k = i) = places d := by
  refine ⟨fun d => Occurrence.all d.marker.toList text.toList, ?_, ?_⟩
  · have lines : files.lines path = .ok (Text.lines text) := by
      rw [Files.lines, read]
      rfl
    simp only [inclusions, found, lines, searched]
    exact Vocabulary.sites_charLines markers _ _ _
  · intro d mem
    obtain ⟨nonempty, solid⟩ := markers d mem
    exact ⟨Occurrence.leftmost_all nonempty _, Occurrence.flatMap_onLine nonempty solid _⟩

/-- A template with separators that break no line, a marker that overlaps itself and no line feed at
its end. -/
def unbrokenPage : String :=
  "<p>\x0c@include('a')\r@include('b')\n\n\u2028**** @include('c')"

theorem inclusions_wholeText_unbrokenPage :
    let directives : List Directive := [⟨"@include(", .first⟩, ⟨"**", .first⟩]
    let templates : Templates :=
      ⟨fun _ => some (Path.ofText "page.php"), .ofTemplates directives, ""⟩
    let files : Files := fun _ => .ok (Text.Utf8.encode unbrokenPage)
    Vocabulary.HasLineMarkers directives ∧
      files.text (Path.ofText "page.php") = .ok unbrokenPage ∧
      ∃ places : Directive → List Nat,
        templates.inclusions files "page" =
          (List.range 3).flatMap (fun i => directives.flatMap fun d =>
            ((places d).filter fun k => breaksBefore unbrokenPage.toList k = i).map
              (d.siteAt "page" 1 unbrokenPage.toList)) ∧
        ∀ d ∈ directives,
          Occurrence.Leftmost d.marker.toList unbrokenPage.toList 0 (places d) ∧
          (List.range 3).flatMap (fun i =>
            (places d).filter fun k => breaksBefore unbrokenPage.toList k = i) = places d := by
  intro directives templates files
  have markers : Vocabulary.HasLineMarkers directives := by decide
  have read : files.text (Path.ofText "page.php") = .ok unbrokenPage := by decide +kernel
  have found : templates.find? (ViewName.normal "page") = some (Path.ofText "page.php") := rfl
  have searched : templates.vocabulary = .ofTemplates directives := rfl
  exact ⟨markers, read, inclusions_wholeText searched markers found read⟩

end Templates

end RenderTrace
