import RenderTrace.Proofs.Catalog.ClassNodes
import RenderTrace.Proofs.Catalog.Indexed
import RenderTrace.Proofs.SourceTree.Nodes
import RenderTrace.Proofs.Text.Cut
import RenderTrace.Trace

/-!
# The lines of a method

A location is recorded for a method node of a source and keeps the rows of the node. The
lines it names are cut out of the file by their numbers, without the tree. When the rows
count the line feeds before the node, these lines are the text from the start of the line
on which the node begins to the end of the line on which it ends, so they hold the method.
-/

namespace RenderTrace
open SourceTree Text.Utf8

/-! ## Recorded locations -/

namespace Catalog
open Node

theorem outermostClasses_subset (n : Node) : outermostClasses n ⊆ n.nodes := by
  induction n using Node.induction with
  | node n below =>
      obtain ⟨type, start, stop, row, endRow, isMissing, field, children⟩ := n
      intro c mem
      rw [outermostClasses] at mem
      split at mem
      · rw [List.mem_singleton.mp mem]
        exact self_mem_nodes _
      · rw [outermostClassesOf_eq_flatMap] at mem
        obtain ⟨child, there, mem⟩ := List.mem_flatMap.mp mem
        exact mem_nodes.mpr (.inr (mem_nodesOf.mpr ⟨child, there, below child there mem⟩))

/-- The class nodes that are indexed are nodes of the source. -/
theorem mem_nodesOf_of_mem_declarations {source : Source} {current ns : Option String}
    {trees : List Node} {c : Node} (mem : (ns, c) ∈ declarations source current trees) :
    c ∈ nodesOf trees := by
  induction trees generalizing current with
  | nil => exact absurd mem List.not_mem_nil
  | cons n rest ih =>
      rw [nodesOf, List.mem_append]
      rw [declarations] at mem
      split at mem
      · dsimp only at mem
        split at mem
        · exact .inr (ih mem)
        next body found =>
          rcases List.mem_append.mp mem with inner | later
          · obtain ⟨m, outermost, same⟩ := List.mem_map.mp inner
            obtain rfl : m = c := congrArg Prod.snd same
            rw [outermostClassesOf_eq_flatMap] at outermost
            obtain ⟨child, there, outermost⟩ := List.mem_flatMap.mp outermost
            have inside : child ∈ nodesOf n.children :=
              mem_nodesOf_of_child there (mem_nodesOf_of_mem (List.mem_of_find?_eq_some found))
            obtain ⟨tree, top, inside⟩ := mem_nodesOf.mp inside
            have deeper := nodes_subset inside (outermostClasses_subset child outermost)
            exact .inl (mem_nodes.mpr (.inr (mem_nodesOf.mpr ⟨tree, top, deeper⟩)))
          · exact .inr (ih later)
      · rcases List.mem_append.mp mem with inner | later
        · obtain ⟨m, outermost, same⟩ := List.mem_map.mp inner
          obtain rfl : m = c := congrArg Prod.snd same
          exact .inl (outermostClasses_subset n outermost)
        · exact .inr (ih later)

/-- The location is recorded for a method node of the source. -/
structure IndexedSource.Records (s : IndexedSource) (member : Node) (l : MethodLocation) :
    Prop where
  mem : member ∈ s.root.nodes
  location : location? s.source s.file l.className member = some l

theorem className_of_location? {source : Source} {file className : String} {member : Node}
    {l : MethodLocation} (found : location? source file className member = some l) :
    l.className = className := by
  rw [location?] at found
  split at found
  · obtain ⟨name, _, rfl⟩ := Option.map_eq_some_iff.mp found
    rfl
  · exact absurd found nofun

/-- Every location of a declared class is recorded for a node of its source. -/
theorem IndexedSource.exists_records {s : IndexedSource} {d : Declared} (declared : d ∈ s.declared)
    {name : String} {l : MethodLocation} (mem : l ∈ d.locations name) :
    ∃ member, s.Records member l := by
  obtain ⟨⟨ns, c⟩, indexed, rfl⟩ := List.mem_map.mp declared
  rw [Declared.locations, locationsOf] at mem
  split at mem
  · exact absurd mem List.not_mem_nil
  next body found =>
    obtain ⟨member, there, location⟩ := List.mem_filterMap.mp mem
    have inside : body ∈ nodesOf s.root.children :=
      mem_nodesOf_of_child (List.mem_of_find?_eq_some found)
        (mem_nodesOf_of_mem_declarations indexed)
    refine ⟨member, mem_nodes.mpr (.inr (mem_nodesOf_of_child there inside)), ?_⟩
    rw [className_of_location? location]
    exact location

/-- Every location of a catalog is recorded for a node of one of its sources. -/
theorem exists_records_of_mem {visibility : String} {sources : List IndexedSource}
    {e : (String × String) × MethodLocation} (mem : e ∈ (ofSources visibility sources).locations) :
    ∃ s ∈ sources, ∃ member, s.Records member e.2 := by
  have start : ∀ e ∈ (empty visibility).locations, ∃ s ∈ sources, ∃ member, s.Records member e.2 :=
    fun _ mem => absurd mem List.not_mem_nil
  have step : ∀ catalog : Catalog,
      (∀ e ∈ catalog.locations, ∃ s ∈ sources, ∃ member, s.Records member e.2) →
      ∀ d ∈ sources.flatMap (·.declared),
        ∀ e ∈ (catalog.add d).locations, ∃ s ∈ sources, ∃ member, s.Records member e.2 := by
    intro catalog recorded d mem e held
    obtain ⟨_, same⟩ | ⟨head, _, added⟩ := catalog.add_cases d
    · rw [same] at held
      exact recorded e held
    · rw [added] at held
      rcases Keyed.mem_of_mem_putAll held with old | new
      · exact recorded e old
      · obtain ⟨l, location, rfl⟩ := List.mem_map.mp new
        obtain ⟨s, there, declared⟩ := List.mem_flatMap.mp mem
        exact ⟨s, there, s.exists_records declared location⟩
  rw [ofSources_eq_foldl] at mem
  exact List.foldlRecOn _ _ start step e mem

end Catalog

/-! ## Nodes in a text -/

/-- The node begins and ends between characters of the text, and its rows count the line feeds before
its first byte and before its end. -/
structure SourceTree.Node.Fits (text : String) (n : Node) : Prop where
  start : IsCut text n.start
  stop : IsCut text n.stop
  row : n.row = ((encode text).take n.start).count 10
  endRow : n.endRow = ((encode text).take n.stop).count 10

instance (text : String) (n : Node) : Decidable (n.Fits text) :=
  decidable_of_iff
    (IsCut text n.start ∧ IsCut text n.stop ∧ n.row = ((encode text).take n.start).count 10 ∧
      n.endRow = ((encode text).take n.stop).count 10)
    ⟨fun ⟨start, stop, row, endRow⟩ => ⟨start, stop, row, endRow⟩,
      fun ⟨start, stop, row, endRow⟩ => ⟨start, stop, row, endRow⟩⟩

/-- The lines are the text from the start of the line of one position to the end of the line of
another, and what follows the first position begins within the first of them. -/
structure Text.LinesHold (text : List Char) (i j : Nat) (lines : List String) : Prop where
  whole : lines.flatMap String.toList =
    lineFront text i ++ ((text.take j).drop i ++ upToBreak (text.drop j))
  first : lines.head? = some (String.ofList (lineAt text i))
  within : (lineFront text i).length < (lineAt text i).length

theorem Text.length_lineFront_lt {text : List Char} {i : Nat} (inside : i < text.length) :
    (lineFront text i).length < (lineAt text i).length := by
  have more := List.length_pos_iff.mpr (upToBreak_drop_ne_nil inside)
  rw [lineAt_eq, List.length_append]
  omega

theorem slice_rows {α : Type} (items : List α) (row endRow : Nat) :
    slice items ((row : Int) + 1 - 1) ((endRow : Int) + 1) =
      (items.take (endRow + 1)).drop row := by
  have low : ¬ (row : Int) + 1 - 1 < 0 := by omega
  have high : ¬ (endRow : Int) + 1 < 0 := by omega
  have first : ((row : Int) + 1 - 1).toNat = row := by omega
  have last : ((endRow : Int) + 1).toNat = endRow + 1 := by omega
  simp only [slice, if_neg low, if_neg high, first, last]

/-- The lines cut out by the line feeds before two positions hold the text between these. -/
theorem Text.linesHold_slice {text : String} {i j : Nat} (ordered : i < j)
    (within : j ≤ text.toList.length) :
    LinesHold text.toList i j
      (slice (lines text) ((breaksBefore text.toList i : Int) + 1 - 1)
        ((breaksBefore text.toList j : Int) + 1)) := by
  have inside : i < text.toList.length := Nat.lt_of_lt_of_le ordered within
  have le := Nat.le_of_lt ordered
  have characters : String.toList ∘ String.ofList = id := funext fun _ => String.toList_ofList
  rw [slice_rows, lines, ← List.map_take, ← List.map_drop]
  refine ⟨?_, ?_, length_lineFront_lt inside⟩
  · rw [List.flatMap_map, ← flatten_lines_between _ le, List.flatMap_def]
    exact congrArg List.flatten ((congrArg (List.map · _) characters).trans (List.map_id _))
  · have less := Nat.lt_succ_of_le (breaksBefore_mono text.toList le)
    rw [List.head?_map, List.head?_drop, List.getElem?_take_of_lt less,
      getElem?_breaksBefore inside, Option.map_some]

namespace Catalog
open Token

/-- Every location of a catalog is recorded for a method node of one of its sources. The lines of a
location hold its method: where the nodes of a source fit its text and the file still reads as that
text, the lines of a location recorded for a node that is not empty are the text from the start of
the line of its first byte to the end of the line of its end, so the text of the node is part of
them and begins within the first. -/
theorem locations_holdMethods (visibility : String) (sources : List IndexedSource) :
    (∀ e ∈ (ofSources visibility sources).locations,
      ∃ s ∈ sources, ∃ member, s.Records member e.2) ∧
    ∀ (s : IndexedSource) (text : String), s.source = Source.ofText text →
      (∀ n ∈ s.root.nodes, n.Fits text) →
      ∀ member l, s.Records member l → member.start < member.stop →
        ∀ files : Files, files.text (Path.ofText l.file) = .ok text →
          l.startLine ≤ l.endLine ∧
          ∃ lines, l.lines files = .ok lines ∧ ∃ i j, i < j ∧ j ≤ text.toList.length ∧
            byteOffset text i = member.start ∧ byteOffset text j = member.stop ∧
            member.text s.source = String.ofList ((text.toList.take j).drop i) ∧
            Text.LinesHold text.toList i j lines := by
  refine ⟨fun e mem => exists_records_of_mem mem, ?_⟩
  intro s text bytes fits member l records nonempty files read
  obtain ⟨⟨i, _, start⟩, ⟨j, within, stop⟩, row, endRow⟩ := fits member records.mem
  have ordered : i < j := by
    rw [← start, ← stop] at nonempty
    exact lt_of_byteOffset_lt text nonempty
  rw [← start, count_break_take_byteOffset] at row
  rw [← stop, count_break_take_byteOffset] at endRow
  have rows := Text.breaksBefore_mono text.toList (Nat.le_of_lt ordered)
  have location := records.location
  rw [location?] at location
  split at location
  · obtain ⟨name, _, same⟩ := Option.map_eq_some_iff.mp location
    rw [← same] at read ⊢
    refine ⟨by simp only; omega, _, ?_, i, j, ordered, within, start, stop, ?_,
      Text.linesHold_slice ordered within⟩
    · rw [MethodLocation.lines, Files.lines, read, row, endRow]
      rfl
    · rw [Node.text, Node.toList_slice, bytes, Source.ofText, ← start, ← stop]
      exact decodeLenient_between text (Nat.le_of_lt ordered)
  · exact absurd location nofun

/-- A class with a method, and in it other line separators and characters of more than one byte. -/
def mixedBreaks : String :=
  "<?php // é\u2028\r\nclass A \x7b\n  // \x0c\u0085 ü\n  function f() \x7b\n    g('ä');\r \x7d\x7d"

/-- The call in the method. -/
def callNode : Node :=
  Node.ofChildren "expression_statement" none
    [Node.ofChildren "function_call_expression" none [leafNode 4 "name" 59 60,
      Node.ofChildren "arguments" (some "arguments") [leafNode 4 "(" 60 61,
        Node.ofChildren "argument" none [Node.ofChildren "string" none
          [leafNode 4 "'" 61 62, leafNode 4 "string_content" 62 64, leafNode 4 "'" 64 65]],
        leafNode 4 ")" 65 66]],
    leafNode 4 ";" 66 67]

def callingNode : Node :=
  Node.ofChildren "method_declaration" none [leafNode 3 "function" 40 48, nameNode 3 "name" 49 50,
    Node.ofChildren "formal_parameters" (some "parameters") [leafNode 3 "(" 50 51, leafNode 3 ")" 51 52],
    Node.ofChildren "compound_statement" (some "body")
      [leafNode 3 openBrace 53 54, callNode, leafNode 4 closeBrace 69 70]]

def mixedBreaksNode : Node :=
  Node.ofChildren "program" none [leafNode 0 "php_tag" 0 5, leafNode 0 "comment" 6 14,
    Node.ofChildren "class_declaration" none [leafNode 1 "class" 16 21, nameNode 1 "name" 22 23,
      Node.ofChildren "declaration_list" (some "body") [leafNode 1 openBrace 24 25,
        leafNode 2 "comment" 28 37, callingNode, leafNode 4 closeBrace 70 71]]]

theorem locations_holdMethods_mixedBreaks :
    let s : IndexedSource := .ofText "a.php" mixedBreaks mixedBreaksNode
    let l : MethodLocation := ⟨"A", "f", "a.php", 4, 5⟩
    (("a", "f"), l) ∈ (ofSources "public" [s]).locations ∧
      (∀ n ∈ s.root.nodes, n.Fits mixedBreaks) ∧
      ∃ member, s.Records member l ∧ member.start < member.stop ∧
        ∃ lines, l.lines (fun _ => .ok (encode mixedBreaks)) = .ok lines ∧ ∃ i j, i < j ∧
          Text.LinesHold mixedBreaks.toList i j lines := by
  intro s l
  have held : (("a", "f"), l) ∈ (ofSources "public" [s]).locations := by decide +kernel
  have fits : ∀ n ∈ s.root.nodes, n.Fits mixedBreaks := by decide +kernel
  have nonempty : ∀ n ∈ s.root.nodes, (location? s.source s.file "A" n).isSome →
      n.start < n.stop := by
    decide +kernel
  obtain ⟨recorded, hold⟩ := locations_holdMethods "public" [s]
  obtain ⟨s', here, member, records⟩ := recorded _ held
  obtain rfl := List.mem_singleton.mp here
  have some_text := nonempty member records.mem (Option.isSome_of_eq_some records.location)
  obtain ⟨_, lines, read, i, j, ordered, _, _, _, _, lines_hold⟩ :=
    hold s mixedBreaks rfl fits member l records some_text (fun _ => .ok (encode mixedBreaks))
      (by decide +kernel)
  exact ⟨held, fits, member, records, some_text, lines, read, i, j, ordered, lines_hold⟩

end Catalog

end RenderTrace
