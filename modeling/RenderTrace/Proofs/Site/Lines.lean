import RenderTrace.Proofs.Site
import RenderTrace.Proofs.Text.Blank

/-!
# Sites of lines one after another

A search looks at line after line, and from each line no further than to the next one,
where arguments may go on. So the sites of lines with more lines behind them are the
sites they have alone, followed by those of the lines behind. Only a marker with nothing
behind it on the last line is given another name, which is read from the next line.
-/

namespace RenderTrace

open Text

/-- A marker as a search sees it: how many lines stand above its line, the line, the directive it
belongs to, and its position in the line. -/
structure Sighting where
  above : Nat
  line : String
  directive : Directive
  position : Nat

/-- The same site with what another target names. -/
def Site.aimedAt (s : Site) (target : Target) : Site :=
  { s with name := target.name, isLiteral := target.isLiteral }

namespace Sighting

/-- The site of a marker in the lines searched, the first of which has the given number. -/
def site (v : Vocabulary) (file : String) (start : Int) (lines : List String) (g : Sighting) : Site :=
  let target := g.directive.target
    (v.arguments g.directive.marker.toList g.line.toList lines[g.above + 1]? g.position)
  { name := target.name
    file := file
    lineNumber := start + g.above
    directive := g.directive.marker
    line := g.line
    isLiteral := target.isLiteral }

/-- Nothing but blanks stands behind the marker on its line. -/
def IsOpenEnded (g : Sighting) : Prop :=
  ∀ c ∈ g.line.toList.drop (g.position + g.directive.marker.toList.length), isBlank c

instance (g : Sighting) : Decidable g.IsOpenEnded :=
  inferInstanceAs (Decidable (∀ _ ∈ _, _))

/-- The site of a marker when one more line may follow the lines searched: on the last of them a
marker with nothing behind it names what the next line does, if the search goes on there. -/
def siteBefore (v : Vocabulary) (file : String) (start : Int) (lines : List String)
    (next? : Option String) (g : Sighting) : Site :=
  match next? with
  | none => g.site v file start lines
  | some next =>
    if v.continuesOnNextLine ∧ g.above + 1 = lines.length ∧ g.IsOpenEnded then
      (g.site v file start lines).aimedAt (g.directive.target (trimChars next.toList))
    else g.site v file start lines

end Sighting

namespace Vocabulary

/-- The markers that the search sees on a line. -/
def lineSightings (v : Vocabulary) (above : Nat) (line : String) : List Sighting :=
  v.directives.flatMap fun d =>
    (v.positions d.marker.toList line.toList).map fun position => ⟨above, line, d, position⟩

/-- The markers that the search sees in lines below so many others, by line, then by directive, then by
position. -/
def sightingsBelow (v : Vocabulary) (above : Nat) (lines : List String) : List Sighting :=
  (lines.zipIdx above).flatMap fun (line, above) => v.lineSightings above line

/-- The markers that the search sees in lines. -/
def sightings (v : Vocabulary) (lines : List String) : List Sighting :=
  v.sightingsBelow 0 lines

variable (v : Vocabulary) (file : String) (start : Int)

theorem sightings_append (a b : List String) :
    v.sightings (a ++ b) = v.sightings a ++ v.sightingsBelow a.length b := by
  rw [sightings, sightingsBelow, List.zipIdx_append, List.flatMap_append, Nat.zero_add]
  rfl

theorem above_lt_of_mem_sightings {lines : List String} {g : Sighting}
    (mem : g ∈ v.sightings lines) : g.above < lines.length := by
  obtain ⟨⟨line, above⟩, there, seen⟩ := List.mem_flatMap.mp mem
  obtain ⟨d, -, at'⟩ := List.mem_flatMap.mp seen
  obtain ⟨position, -, rfl⟩ := List.mem_map.mp at'
  exact List.snd_lt_of_mem_zipIdx there

theorem lineSites_eq_map_site (before rest : List String) (line : String) :
    v.lineSites file (start + before.length) line rest.head? =
      (v.lineSightings before.length line).map
        (·.site v file start (before ++ line :: rest)) := by
  have next : (before ++ line :: rest)[before.length + 1]? = rest.head? := by
    simp [List.getElem?_append_right, List.head?_eq_getElem?]
  rw [lineSites, lineSightings, List.map_flatMap]
  simp only [List.map_map, Function.comp_def, Sighting.site, next]

/-- Each marker seen has its site, also in lines that others precede. -/
theorem sites_eq_map_site (before lines : List String) :
    v.sites file (start + before.length) lines =
      (v.sightingsBelow before.length lines).map (·.site v file start (before ++ lines)) := by
  -- A site is read off all the lines, so those already searched are kept in front of the others.
  induction lines generalizing before with
  | nil => rfl
  | cons line rest ih =>
      have later := ih (before ++ [line])
      rw [List.length_append, List.length_singleton, List.append_assoc, List.singleton_append,
        Int.natCast_add, ← Int.add_assoc] at later
      rw [sites, lineSites_eq_map_site, sightingsBelow, List.zipIdx_cons, List.flatMap_cons,
        List.map_append]
      exact congrArg _ later

end Vocabulary

namespace Sighting

variable {v : Vocabulary} {file : String} {start : Int} {a : List String} {g : Sighting}

theorem isOpenEnded_iff : g.IsOpenEnded ↔
    trimChars (g.line.toList.drop (g.position + g.directive.marker.toList.length)) = [] :=
  trimChars_eq_nil_iff.symm

/-- Below the last line nothing is read for a marker that something stands behind, or by a search that
never goes on there. -/
theorem arguments_eq_of_not_goesOn {next : String}
    (stays : ¬ (v.continuesOnNextLine ∧ g.IsOpenEnded)) :
    v.arguments g.directive.marker.toList g.line.toList (some next) g.position =
      v.arguments g.directive.marker.toList g.line.toList none g.position := by
  rw [isOpenEnded_iff] at stays
  simp only [Vocabulary.arguments, ite_eq_right_iff, Bool.and_eq_true, List.isEmpty_iff]
  intro goesOn
  exact absurd goesOn.symm stays

theorem arguments_eq_of_goesOn {next : String} (goesOn : v.continuesOnNextLine ∧ g.IsOpenEnded) :
    v.arguments g.directive.marker.toList g.line.toList (some next) g.position =
      trimChars next.toList := by
  rw [isOpenEnded_iff] at goesOn
  simp [Vocabulary.arguments, goesOn]

/-- Lines behind those searched matter to a marker on the last of them only. -/
theorem site_append (within : g.above < a.length) (b : List String) :
    g.site v file start (a ++ b) = g.siteBefore v file start a b.head? := by
  -- The line behind a marker is the same one with and without `b`, unless `a` ends there.
  by_cases last : g.above + 1 = a.length
  · have alone : a[g.above + 1]? = none := List.getElem?_eq_none (Nat.le_of_eq last.symm)
    have next : (a ++ b)[g.above + 1]? = b.head? := by
      rw [List.getElem?_append_right (Nat.le_of_eq last.symm), last, Nat.sub_self,
        List.head?_eq_getElem?]
    cases head : b.head? with
    | none => rw [siteBefore, site, site, next, head, alone]
    | some line =>
        by_cases goesOn : v.continuesOnNextLine ∧ g.IsOpenEnded
        · rw [siteBefore, if_pos ⟨goesOn.1, last, goesOn.2⟩, site, next, head,
            arguments_eq_of_goesOn goesOn, site, Site.aimedAt]
        · have stays : ¬ (v.continuesOnNextLine ∧ g.above + 1 = a.length ∧ g.IsOpenEnded) :=
            fun all => goesOn ⟨all.1, all.2.2⟩
          rw [siteBefore, if_neg stays, site, next, head, arguments_eq_of_not_goesOn goesOn, site,
            alone]
  · have same : (a ++ b)[g.above + 1]? = a[g.above + 1]? :=
      List.getElem?_append_left (Nat.lt_of_le_of_ne within last)
    have stays : ¬ (v.continuesOnNextLine ∧ g.above + 1 = a.length ∧ g.IsOpenEnded) :=
      fun all => last all.2.1
    cases b.head? with
    | none => rw [siteBefore, site, site, same]
    | some line => rw [siteBefore, if_neg stays, site, site, same]

theorem siteBefore_of_not_continues (stays : v.continuesOnNextLine = false) (next? : Option String) :
    g.siteBefore v file start a next? = g.site v file start a := by
  cases next? with
  | none => rfl
  | some next => exact if_neg (by simp [stays])

end Sighting

namespace Vocabulary

/-- The sites of lines put before others are found in both alike: each marker seen in the first lines
has one site there, with the same number, line and directive as without the others, and then come the
sites of the others with their numbers going on. What is read for a marker can only change where the
search goes on to the next line, and there only for a marker on the last of the first lines with nothing
but blanks behind it, which then names what the next line does. -/
theorem sites_append (v : Vocabulary) (file : String) (start : Int) (a b : List String) :
    v.sites file start a = (v.sightings a).map (·.site v file start a) ∧
    v.sites file start (a ++ b) =
      (v.sightings a).map (·.siteBefore v file start a b.head?) ++
        v.sites file (start + a.length) b ∧
    (v.continuesOnNextLine = false →
      v.sites file start (a ++ b) =
        v.sites file start a ++ v.sites file (start + a.length) b) := by
  have alone (lines : List String) :
      v.sites file start lines = (v.sightings lines).map (·.site v file start lines) := by
    have whole := v.sites_eq_map_site file start [] lines
    rwa [List.length_nil, Int.natCast_zero, Int.add_zero, List.nil_append] at whole
  have both : v.sites file start (a ++ b) =
      (v.sightings a).map (·.siteBefore v file start a b.head?) ++
        v.sites file (start + a.length) b := by
    rw [alone, sightings_append, List.map_append, ← sites_eq_map_site]
    congr 1
    apply List.map_congr_left
    intro g mem
    exact g.site_append (v.above_lt_of_mem_sightings mem) b
  refine ⟨alone a, both, fun stays => ?_⟩
  rw [both, alone a]
  congr 1
  apply List.map_congr_left
  intro g _
  exact g.siteBefore_of_not_continues stays _

end Vocabulary

end RenderTrace
