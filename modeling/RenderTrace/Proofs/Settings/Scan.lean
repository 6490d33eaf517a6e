import Mathlib.Algebra.Order.BigOperators.Group.List
import Mathlib.Algebra.Order.Ring.Nat
import RenderTrace.Proofs.Settings
import RenderTrace.Proofs.Site.Search

/-!
# Scanning templates under settings

The search for a marker ends in every line unless the marker is empty, and the settings
take a directive as it is written. So whether every template can be scanned to its end is
read off the entries: it can exactly when no entry under `directives` is the empty text or
a mapping with the empty text as its marker. No other value has an empty text.
-/

namespace RenderTrace

/-! ## Values with an empty text -/

namespace Decimal

theorem Format.positive_ne_nil (f : Format) (digits : Nat) (exponent : Int) :
    f.positive digits exponent ≠ [] := by
  rw [Format.positive]
  split
  · split
    · exact List.cons_ne_nil _ _
    · simp
  · split
    · exact List.cons_ne_nil _ _
    · exact List.cons_ne_nil _ _
    · exact List.cons_ne_nil _ _

theorem Format.write_ne_empty {f : Format} (nan : f.nan ≠ []) (infinity : f.infinity ≠ [])
    (b : Binary) : f.write b ≠ "" := by
  cases b with
  | nan => exact fun empty => nan (String.ofList_eq_empty_iff.mp empty)
  | infinite negative =>
      intro empty
      exact infinity (List.append_eq_nil_iff.mp (String.ofList_eq_empty_iff.mp empty)).2
  | finite negative m e =>
      intro empty
      have size := (List.append_eq_nil_iff.mp (String.ofList_eq_empty_iff.mp empty)).2
      split at size
      · exact absurd size (List.cons_ne_nil _ _)
      · exact f.positive_ne_nil _ _ size

end Decimal

namespace Value

theorem append_ne_empty {s t : String} (front : s ≠ "") : s ++ t ≠ "" := by
  intro empty
  have parts := congrArg String.toList empty
  rw [String.toList_append] at parts
  exact front (String.toList_eq_nil_iff.mp (List.append_eq_nil_iff.mp parts).1)

/-- The only value with an empty text is the empty text. -/
theorem bare_eq_empty_iff (v : Value) : v.bare = "" ↔ v = text "" := by
  constructor
  · intro empty
    cases v with
    | text s => rw [← empty, bare_text]
    | null => exact absurd empty (by decide)
    | bool b => cases b <;> exact absurd empty (by decide)
    | int n =>
        cases n with
        | ofNat n => exact absurd empty Nat.repr_ne_empty
        | negSucc n => exact absurd empty (append_ne_empty (by decide))
    | float x => exact absurd empty (Decimal.Format.write_ne_empty (by decide) (by decide) _)
    | list items => exact absurd empty (append_ne_empty (append_ne_empty (by decide)))
    | mapping entries => exact absurd empty (append_ne_empty (append_ne_empty (by decide)))
  · rintro rfl
    rfl

end Value

/-! ## Directives with an empty marker -/

/-- What holds of some result holds of some element, if it can be told from the element. -/
theorem exists_mem_mapM_iff {ε α β : Type} {f : α → Except ε β} {as : List α} {bs : List β}
    {P : β → Prop} {Q : α → Prop} (read : as.mapM f = .ok bs)
    (same : ∀ a b, f a = .ok b → (P b ↔ Q a)) : (∃ b ∈ bs, P b) ↔ ∃ a ∈ as, Q a := by
  induction as generalizing bs with
  | nil =>
      cases read
      simp
  | cons a as ih =>
      rw [List.mapM_cons] at read
      obtain ⟨b, first, read⟩ := exists_of_bind_eq_ok read
      obtain ⟨bs, rest, read⟩ := exists_of_bind_eq_ok read
      cases read
      simp [ih rest, same a b first]

/-- The entry spells a directive with an empty marker. -/
def Value.SpellsEmptyMarker (entry : Value) : Prop :=
  entry = .text "" ∨ ∃ entries, entry = .mapping entries ∧
    Value.lookup? "marker" entries = some (.text "")

theorem Directive.marker_eq_empty_iff {entry : Value} {d : Directive}
    (read : Directive.ofValue entry = .ok d) : d.marker = "" ↔ entry.SpellsEmptyMarker := by
  cases entry with
  | text s =>
      cases read
      simp [Value.SpellsEmptyMarker]
  | mapping entries =>
      rw [Directive.ofValue] at read
      split at read
      · cases read
      next marker found =>
        split at read
        · cases read
        next s written =>
          have shown : marker.bare = s :=
            Option.some.inj (Option.ite_none_right_eq_some.mp written).2
          cases rule : ruleOf (Value.lookup? "argument" entries) with
          | error e =>
              rw [rule] at read
              cases read
          | ok r =>
              rw [rule] at read
              cases read
              rw [← shown, Value.bare_eq_empty_iff]
              simp [Value.SpellsEmptyMarker, found]
  | list items => cases read
  | null => cases read
  | bool b => cases read
  | int n => cases read
  | float x => cases read

namespace Settings

/-- Some entry under the key spells a directive with an empty marker. -/
def SpellsEmptyMarker (key : String) (raw : List (Value × Value)) : Prop :=
  ∃ v items, Value.lookup? key raw = some v ∧ itemsOf key v = .ok items ∧
    ∃ entry ∈ items, entry.SpellsEmptyMarker

theorem exists_empty_marker_iff {key : String} {usual found : List Directive}
    {raw : List (Value × Value)} (whole : ∀ d ∈ usual, d.marker ≠ "")
    (read : directivesOf key usual raw = .ok found) :
    (∃ d ∈ found, d.marker = "") ↔ SpellsEmptyMarker key raw := by
  rw [directivesOf] at read
  split at read
  next absent =>
    cases read
    constructor
    · rintro ⟨d, mem, empty⟩
      exact absurd empty (whole d mem)
    · rintro ⟨v, _, present, _⟩
      rw [absent] at present
      cases present
  next v present =>
    obtain ⟨items, listed, read⟩ := exists_of_bind_eq_ok read
    have spelled : ∀ entry d, (Directive.ofValue entry).mapError (Error.badDirective key) = .ok d →
        (d.marker = "" ↔ entry.SpellsEmptyMarker) := by
      intro entry d accepted
      cases described : Directive.ofValue entry with
      | error e =>
          rw [described] at accepted
          cases accepted
      | ok d' =>
          rw [described] at accepted
          cases accepted
          exact Directive.marker_eq_empty_iff described
    rw [exists_mem_mapM_iff read spelled]
    constructor
    · exact fun spells => ⟨v, items, present, listed, spells⟩
    · rintro ⟨v', items', present', listed', spells⟩
      obtain rfl : v = v' := Option.some.inj (present.symm.trans present')
      obtain rfl : items = items' := Except.ok.inj (listed.symm.trans listed')
      exact spells

/-- The directives of accepted settings are those that their keys give. -/
theorem directives_of_ofEntries {root : Path} {raw : List (Value × Value)} {settings : Settings}
    (accepted : ofEntries root raw = .ok settings) :
    directivesOf "render_calls" Directive.renderCalls raw = .ok settings.renderCalls ∧
      directivesOf "directives" Directive.inclusions raw = .ok settings.directives := by
  rw [ofEntries] at accepted
  obtain ⟨views, _, accepted⟩ := exists_of_bind_eq_ok accepted
  obtain ⟨viewPaths, _, accepted⟩ := exists_of_bind_eq_ok accepted
  obtain ⟨viewNamespaces, _, accepted⟩ := exists_of_bind_eq_ok accepted
  obtain ⟨viewExtensions, _, accepted⟩ := exists_of_bind_eq_ok accepted
  obtain ⟨templateSuffix, _, accepted⟩ := exists_of_bind_eq_ok accepted
  obtain ⟨maxDepth, _, accepted⟩ := exists_of_bind_eq_ok accepted
  obtain ⟨renderCalls, calls, accepted⟩ := exists_of_bind_eq_ok accepted
  obtain ⟨directives, inclusions, accepted⟩ := exists_of_bind_eq_ok accepted
  obtain ⟨defaultVisibility, _, accepted⟩ := exists_of_bind_eq_ok accepted
  cases accepted
  exact ⟨calls, inclusions⟩

end Settings

/-! ## Scans of whole templates -/

namespace Vocabulary

/-- The search for every marker ends in every line, where it looks for more than the first
occurrence. -/
def ScanEnds (v : Vocabulary) (lines : List String) : Prop :=
  v.everyOccurrence = true →
    ∀ line ∈ lines, ∀ d ∈ v.directives, Occurrence.SearchEnds d.marker.toList line.toList

theorem scanEnds_ofTemplates_iff {directives : List Directive} {lines : List String}
    (some_line : lines ≠ []) :
    (ofTemplates directives).ScanEnds lines ↔ ¬ ∃ d ∈ directives, d.marker = "" := by
  constructor
  · rintro ends ⟨d, mem, empty⟩
    obtain ⟨line, there⟩ := List.exists_mem_of_ne_nil lines some_line
    have nonempty := Occurrence.searchEnds_iff.mp (ends rfl line there d mem)
    exact String.toList_eq_nil_iff.not.mp nonempty empty
  · intro whole _ line _ d mem
    have nonempty := String.toList_eq_nil_iff.not.mpr fun empty => whole ⟨d, mem, empty⟩
    exact Occurrence.searchEnds_iff.mpr nonempty

variable {v : Vocabulary}

theorem length_positions_le {marker : List Char} (nonempty : marker ≠ []) (cs : List Char) :
    (v.positions marker cs).length ≤ cs.length := by
  rw [positions]
  split
  · exact Occurrence.length_all_le nonempty
  · cases found : Occurrence.first? marker cs with
    | none => exact Nat.zero_le _
    | some k =>
        have occurs := Occurrence.prefix_drop_of_first? found
        have ends := Occurrence.length_le_of_prefix_drop nonempty occurs
        have positive := List.length_pos_iff.mpr nonempty
        rw [Option.toList_some, List.length_singleton]
        omega

section
variable (whole : ∀ d ∈ v.directives, d.marker ≠ "")
include whole

theorem length_lineSites_le (file : String) (lineNumber : Int) (line : String)
    (next? : Option String) :
    (v.lineSites file lineNumber line next?).length ≤ line.length * v.directives.length := by
  have each : ∀ size ∈ v.directives.map fun d =>
      (v.positions d.marker.toList line.toList).length, size ≤ line.length := by
    intro size mem
    obtain ⟨d, there, rfl⟩ := List.mem_map.mp mem
    have nonempty := String.toList_eq_nil_iff.not.mpr (whole d there)
    exact length_positions_le nonempty line.toList
  have all := List.sum_le_card_nsmul _ _ each
  simp only [lineSites, List.length_flatMap, List.length_map]
  rwa [List.length_map, nsmul_eq_mul, Nat.cast_id, Nat.mul_comm] at all

/-- There are at most as many sites as the lines have characters for each directive. -/
theorem length_sites_le (file : String) (start : Int) (lines : List String) :
    (v.sites file start lines).length ≤ (lines.map String.length).sum * v.directives.length := by
  induction lines generalizing start with
  | nil => exact Nat.zero_le _
  | cons line rest ih =>
      rw [sites, List.length_append, List.map_cons, List.sum_cons, Nat.add_mul]
      exact Nat.add_le_add (length_lineSites_le whole file start line rest.head?) (ih (start + 1))

end

end Vocabulary

theorem Text.sum_length_lines (text : String) :
    ((Text.lines text).map String.length).sum = text.length := by
  have same : String.length ∘ String.ofList = List.length := funext fun cs => String.length_ofList
  rw [Text.lines, List.map_map, same, ← List.length_flatten, Text.flatten_charLines,
    String.length_toList]

namespace Settings

/-- Accepted settings can scan every template to its end exactly when no entry under `directives`
spells an empty marker. The search for any other marker moves to the right at every step and finds
the places that the scan reports, and then a template has at most as many references as it has
characters for each directive. -/
theorem scanEnds_iff {root : Path} {raw : List (Value × Value)} {settings : Settings}
    (accepted : ofEntries root raw = .ok settings) :
    ((∃ d ∈ settings.renderCalls, d.marker = "") ↔ SpellsEmptyMarker "render_calls" raw) ∧
    ((∃ d ∈ settings.directives, d.marker = "") ↔ SpellsEmptyMarker "directives" raw) ∧
    (∀ text ≠ "", (Vocabulary.ofTemplates settings.directives).ScanEnds (Text.lines text) ↔
      ¬ SpellsEmptyMarker "directives" raw) ∧
    (∀ d ∈ settings.directives, d.marker ≠ "" → ∀ (line : List Char) (n : Nat),
      Occurrence.found? d.marker.toList line n =
        ((Vocabulary.ofTemplates settings.directives).positions d.marker.toList line)[n]? ∧
      ∀ j k, Occurrence.found? d.marker.toList line n = some j →
        Occurrence.found? d.marker.toList line (n + 1) = some k → j < k) ∧
    (¬ SpellsEmptyMarker "directives" raw → ∀ (files : Files) (name : String) (path : Path)
      (text : String), settings.folders.find? files (ViewName.normal name) = some path →
        files.text path = .ok text →
        (settings.inclusions files name).length ≤ text.length * settings.directives.length) := by
  obtain ⟨calls, inclusions⟩ := directives_of_ofEntries accepted
  have calls_iff := exists_empty_marker_iff (by decide) calls
  have directives_iff := exists_empty_marker_iff (by decide) inclusions
  refine ⟨calls_iff, directives_iff, ?_, ?_, ?_⟩
  · intro text some_text
    have some_line : Text.lines text ≠ [] := by
      intro none
      have size := Text.sum_length_lines text
      rw [none] at size
      exact some_text (String.length_eq_zero_iff.mp size.symm)
    rw [Vocabulary.scanEnds_ofTemplates_iff some_line, directives_iff]
  · intro d _ whole line n
    have nonempty := String.toList_eq_nil_iff.not.mpr whole
    exact ⟨Occurrence.found?_eq_getElem?_all nonempty n,
      fun j k => Occurrence.lt_of_found?_succ nonempty⟩
  · intro spelled files name path text found read
    have whole : ∀ d ∈ settings.directives, d.marker ≠ "" :=
      fun d mem empty => spelled (directives_iff.mp ⟨d, mem, empty⟩)
    have lines : files.lines path = .ok (Text.lines text) := by
      rw [Files.lines, read]
      rfl
    have bound := Vocabulary.length_sites_le (v := .ofTemplates settings.directives) whole
      (name ++ settings.templateSuffix) 1 (Text.lines text)
    rw [Text.sum_length_lines] at bound
    simp only [Settings.inclusions, Templates.inclusions, templates, found, lines]
    exact bound

/-- Two directives, one of them with a number for its marker. -/
def numberedDirective : List (Value × Value) :=
  [(.text "directives", .list [.text "@include(",
    .mapping [(.text "marker", .int 5), (.text "argument", .text "second")]])]

theorem scanEnds_iff_numberedDirective :
    let directives : List Directive := [⟨"@include(", .first⟩, ⟨"5", .second⟩]
    let settings : Settings := { usual with directives := directives }
    let files : Files := fun p =>
      if p = Path.ofText "resources/views/page.blade.php" then
        .ok (Text.Utf8.encode "55@include('menu')")
      else .error .missing
    ofEntries (Path.ofText ".") numberedDirective = .ok settings ∧
      ¬ SpellsEmptyMarker "directives" numberedDirective ∧
      (Vocabulary.ofTemplates directives).ScanEnds (Text.lines "55@include('menu')") ∧
      (settings.inclusions files "page").length ≤ 18 * 2 := by
  intro directives settings files
  have accepted : ofEntries (Path.ofText ".") numberedDirective = .ok settings := rfl
  obtain ⟨-, directives_iff, ends_iff, -, bounded⟩ := scanEnds_iff accepted
  have spelled := directives_iff.not.mp (by decide)
  refine ⟨accepted, spelled, (ends_iff _ (by decide)).mpr spelled, ?_⟩
  exact bounded spelled files "page" (Path.ofText "resources/views/page.blade.php")
    "55@include('menu')" (by decide +kernel) (by decide +kernel)

/-- A directive with an empty marker. -/
def emptyDirective : List (Value × Value) :=
  [(.text "directives", .list [.text ""])]

/-- An empty marker is accepted, and the search for it stays at the first place forever. -/
theorem ofEntries_emptyDirective :
    ofEntries (Path.ofText ".") emptyDirective =
        .ok { usual with directives := [⟨"", .first⟩] } ∧
      ∀ n, Occurrence.found? "".toList "x".toList n = some 0 :=
  ⟨rfl, Occurrence.found?_nil _⟩

end Settings

end RenderTrace
