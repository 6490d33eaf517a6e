import RenderTrace.Proofs.Expansion.Nodes
import RenderTrace.Proofs.Site
import RenderTrace.Trace

/-!
# Where the nodes of a trace come from

Every node of a traced tree occurs in source: a root on a line of the method, every
other node on a line of the template of the view above it, and there a directive of
the settings reads the node from the text after its marker.
-/

namespace RenderTrace

/-- The lines from one number on, up to and with another, both counted from one. -/
theorem getElem?_slice {α : Type} {items : List α} {start stop : Int} (positive : 1 ≤ start)
    (ordered : start ≤ stop) (i : Nat) :
    (slice items (start - 1) stop)[i]? =
      if start + i ≤ stop then items[(start + i - 1).toNat]? else none := by
  have low : ¬ start - 1 < 0 := by omega
  have high : ¬ stop < 0 := by omega
  have place : (start - 1).toNat + i = (start + i - 1).toNat := by omega
  simp only [slice, if_neg low, if_neg high, List.getElem?_drop, List.getElem?_take, place]
  by_cases within : start + i ≤ stop
  · have less : (start + i - 1).toNat < stop.toNat := by omega
    rw [if_pos within, if_pos less]
  · have less : ¬ (start + i - 1).toNat < stop.toNat := by omega
    rw [if_neg within, if_neg less]

namespace Trace

/-- A site that a method renders: it stands on a line of the method, and a render call reads it
there, going on to the next line of the method when nothing follows the marker. -/
structure RenderedBy (settings : Settings) (location : MethodLocation) (lines : List String)
    (s : Site) : Prop where
  file : s.file = location.className
  start_le : location.startLine ≤ s.lineNumber
  le_end : s.lineNumber ≤ location.endLine
  line : lines[(s.lineNumber - 1).toNat]? = some s.line
  read : ∃ d ∈ settings.renderCalls, ∃ position, d.Reads s
    (if s.lineNumber < location.endLine then lines[s.lineNumber.toNat]? else none) position

/-- A site that a view includes: its template is found and read, the site stands on a line of it,
and an inclusion directive reads it there. -/
structure IncludedBy (settings : Settings) (files : Files) (view : String) (s : Site) :
    Prop where
  file : s.file = view ++ settings.templateSuffix
  line : ∃ path lines, settings.folders.find? files (ViewName.normal view) = some path ∧
    files.lines path = .ok lines ∧ 1 ≤ s.lineNumber ∧ s.lineNumber ≤ lines.length ∧
    lines[(s.lineNumber - 1).toNat]? = some s.line
  read : ∃ d ∈ settings.directives, ∃ position, d.Reads s none position

theorem renderedBy_of_mem_sites {settings : Settings} {location : MethodLocation}
    {lines : List String} (positive : 1 ≤ location.startLine)
    (ordered : location.startLine ≤ location.endLine) {s : Site}
    (mem : s ∈ (Vocabulary.ofCalls settings.renderCalls).sites location.className
      location.startLine (slice lines (location.startLine - 1) location.endLine)) :
    RenderedBy settings location lines s := by
  obtain ⟨i, line, there, found⟩ := Vocabulary.mem_sites.mp mem
  obtain ⟨file, number, rfl, d, known, position, reads⟩ :=
    Vocabulary.reads_of_mem_lineSites found
  rw [getElem?_slice positive ordered] at there
  rw [getElem?_slice positive ordered] at reads
  split at there
  next within =>
    have next : (if location.startLine + ((i + 1 : Nat) : Int) ≤ location.endLine then
          lines[(location.startLine + ((i + 1 : Nat) : Int) - 1).toNat]? else none) =
        if s.lineNumber < location.endLine then lines[s.lineNumber.toNat]? else none := by
      have below : location.startLine + ((i + 1 : Nat) : Int) ≤ location.endLine ↔
          s.lineNumber < location.endLine := by omega
      have place : (location.startLine + ((i + 1 : Nat) : Int) - 1).toNat =
          s.lineNumber.toNat := by omega
      simp only [below, place]
    refine ⟨file, by omega, by omega, ?_, d, known, position, ?_⟩
    · rw [number]
      exact there
    · rw [← next]
      exact reads
  next => exact absurd there nofun

theorem includedBy_of_mem_inclusions {settings : Settings} {files : Files} {view : String}
    {s : Site} (mem : s ∈ settings.inclusions files view) :
    IncludedBy settings files view s := by
  simp only [Settings.inclusions, Templates.inclusions, Settings.templates] at mem
  split at mem
  next => exact absurd mem List.not_mem_nil
  next path found =>
    split at mem
    next => exact absurd mem List.not_mem_nil
    next lines read =>
      obtain ⟨i, line, there, found'⟩ := Vocabulary.mem_sites.mp mem
      obtain ⟨file, number, rfl, d, known, position, reads⟩ :=
        Vocabulary.reads_of_mem_lineSites found'
      have within : i < lines.length := (List.getElem?_eq_some_iff.mp there).1
      have place : (s.lineNumber - 1).toNat = i := by omega
      refine ⟨file, ⟨path, lines, found, read, by omega, by omega, ?_⟩, d, known, position, reads⟩
      rw [place]
      exact there

/-- A method whose file can be read is traced, and every node of its tree occurs in source: on a
line of the method, or on a line of the template of the view above. -/
theorem node_occurs (settings : Settings) (files : Files) (location : MethodLocation)
    (lines : List String) (positive : 1 ≤ location.startLine)
    (ordered : location.startLine ≤ location.endLine)
    (read : files.lines (Path.ofText location.file) = .ok lines) :
    ∃ level, views settings files location = .ok level ∧
      (∀ r, level.Node none r → RenderedBy settings location lines r.site) ∧
      ∀ parent r, level.Node (some parent) r → IncludedBy settings files parent.name r.site := by
  let sites := (Vocabulary.ofCalls settings.renderCalls).sites location.className
    location.startLine (slice lines (location.startLine - 1) location.endLine)
  have traced : views settings files location =
      .ok (settings.tree files (.references (sites.map Site.reference))) := by
    rw [views, renderSites, MethodLocation.lines, read]
    rfl
  refine ⟨_, traced, ?_, ?_⟩
  · intro r node
    obtain ⟨depth, above, visit, _⟩ := Expansion.exists_visit_of_node node
    apply renderedBy_of_mem_sites positive ordered
    have mem := visit.mem_start
    have same : ((·.site) ∘ Site.reference) = fun s => s := rfl
    rw [Expansion.Start.sites, List.map_map, same, List.map_id'] at mem
    exact mem
  · intro parent r node
    obtain ⟨depth, above, visit, _⟩ := Expansion.exists_visit_of_node node
    exact includedBy_of_mem_inclusions visit.mem_inclusions

/-- A method that breaks a call after its marker, and the template it names. -/
def brokenCall : Files := fun p =>
  if p = Path.ofText "C.php" then .ok (Text.Utf8.encode "function f()\n  return view(\n  'a.b');\n")
  else if p = Path.ofText "resources/views/a/b.php" then .ok (Text.Utf8.encode "@include('c')")
  else .error .missing

theorem node_occurs_brokenCall :
    let location : MethodLocation := ⟨"C", "f", "C.php", 1, 3⟩
    let lines := ["function f()\n", "  return view(\n", "  'a.b');\n"]
    1 ≤ location.startLine ∧ location.startLine ≤ location.endLine ∧
      brokenCall.lines (Path.ofText location.file) = .ok lines ∧
      ∃ level, views .usual brokenCall location = .ok level ∧
        (∀ r, level.Node none r → RenderedBy .usual location lines r.site) ∧
        ∀ parent r, level.Node (some parent) r →
          IncludedBy .usual brokenCall parent.name r.site := by
  intro location lines
  have read : brokenCall.lines (Path.ofText "C.php") = .ok lines := by
    decide +kernel
  exact ⟨by decide, by decide, read,
    node_occurs .usual brokenCall location lines (by decide) (by decide) read⟩

end Trace
end RenderTrace
