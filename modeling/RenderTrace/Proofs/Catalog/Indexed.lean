import RenderTrace.Catalog
import RenderTrace.Proofs.Keyed

/-!
# Indexing sources one after another

A catalog is what remains of a run that adds the declarations of its sources, one at
a time. Every location stands under its own key, and no key stands twice.
-/

namespace RenderTrace.Catalog
open SourceTree Token

/-- A source as it is indexed: its bytes, the name of its file and its syntax tree. -/
structure IndexedSource where
  source : Source
  file : String
  root : Node

/-- A file that holds a PHP text with the given syntax tree. -/
def IndexedSource.ofText (file text : String) (root : Node) : IndexedSource :=
  ⟨Source.ofText text, file, root⟩

/-- A leaf that lies on one row. -/
def leafNode (row : Nat) (type : String) (start stop : Nat) : Node :=
  ⟨type, start, stop, row, row, false, none, []⟩

/-- A leaf on one row that names the node it stands in. -/
def nameNode (row : Nat) (type : String) (start stop : Nat) : Node :=
  { leafNode row type start stop with field := some "name" }

/-- The method `function f() {}`, under any name of one letter, from the given byte on. -/
def idleNode (row start : Nat) : Node :=
  Node.ofChildren "method_declaration" none [leafNode row "function" start (start + 8),
    nameNode row "name" (start + 9) (start + 10),
    Node.ofChildren "formal_parameters" (some "parameters")
      [leafNode row "(" (start + 10) (start + 11), leafNode row ")" (start + 11) (start + 12)],
    Node.ofChildren "compound_statement" (some "body")
      [leafNode row openBrace (start + 13) (start + 14),
        leafNode row closeBrace (start + 14) (start + 15)]]

/-- A class on one row, from its keyword at the given byte to its closing brace. -/
def lineClassNode (row : Nat) (attributes : List Node) (start letters : Nat) (members : List Node)
    (stop : Nat) : Node :=
  Node.ofChildren "class_declaration" none (attributes ++ [leafNode row "class" start (start + 5),
    nameNode row "name" (start + 6) (start + 6 + letters),
    Node.ofChildren "declaration_list" (some "body")
      (leafNode row openBrace (start + 7 + letters) (start + 8 + letters) :: members ++
        [leafNode row closeBrace (stop - 1) stop])])

/-- A class node with its namespace, and the source it stands in. -/
structure Declared where
  source : Source
  file : String
  namespaceName : Option String
  node : Node

/-- The class nodes of a source that are indexed, in order. -/
def IndexedSource.declared (s : IndexedSource) : List Declared :=
  (declarations s.source none s.root.children).map fun d => ⟨s.source, s.file, d.1, d.2⟩

/-- The catalog of sources that are indexed one after another. -/
def ofSources (visibility : String) (sources : List IndexedSource) : Catalog :=
  sources.foldl (fun catalog s => catalog.addTree s.source s.file s.root) (empty visibility)

/-- The catalog with one more declaration. -/
def add (catalog : Catalog) (d : Declared) : Catalog :=
  addClass d.source d.file catalog (d.namespaceName, d.node)

theorem addTree_eq_foldl (catalog : Catalog) (s : IndexedSource) :
    catalog.addTree s.source s.file s.root = s.declared.foldl add catalog := by
  rw [addTree, IndexedSource.declared, List.foldl_map]
  rfl

/-- A run over sources adds their declarations, one after another. -/
theorem ofSources_eq_foldl (visibility : String) (sources : List IndexedSource) :
    ofSources visibility sources =
      (sources.flatMap (·.declared)).foldl add (empty visibility) := by
  rw [ofSources]
  generalize empty visibility = catalog
  induction sources generalizing catalog with
  | nil => rfl
  | cons s sources ih =>
      rw [List.foldl_cons, ih, List.flatMap_cons, List.foldl_append, addTree_eq_foldl]

namespace Declared

variable (d : Declared)

/-- What is read of the class. -/
def shape (visibility : String) : ClassShape :=
  ClassShape.read visibility (tokens d.source d.node)

/-- The locations of the methods of the class, which has the given name. -/
def locations (name : String) : List MethodLocation :=
  locationsOf d.source d.file (Catalog.fullName d.namespaceName name) d.node

end Declared

/-- Adding a class without a readable name changes nothing; adding another puts its shape under its
full name and the locations of its methods under their keys. -/
theorem add_cases (catalog : Catalog) (d : Declared) :
    ((d.shape catalog.visibility).head = none ∧ catalog.add d = catalog) ∨
    ∃ head, (d.shape catalog.visibility).head = some head ∧ catalog.add d =
      { catalog with
        classes := Keyed.put (fullName d.namespaceName head.name) (d.shape catalog.visibility)
          catalog.classes
        locations := Keyed.putAll catalog.locations
          ((d.locations head.name).map fun l => (locationKey l, l)) } := by
  rw [add, addClass]
  cases equal : (d.shape catalog.visibility).head with
  | none =>
      rw [Declared.shape] at equal
      simp only [equal]
      exact Or.inl ⟨trivial, trivial⟩
  | some head =>
      rw [Declared.shape] at equal
      simp only [equal]
      exact Or.inr ⟨head, rfl, rfl⟩

/-- Every location stands under its own key, and every key stands once. -/
structure WellKeyed (catalog : Catalog) : Prop where
  keyed : ∀ p ∈ catalog.locations, p.1 = locationKey p.2
  nodup : (catalog.locations.map (·.1)).Nodup

namespace WellKeyed

theorem empty (visibility : String) : WellKeyed (empty visibility) :=
  ⟨fun _ mem => absurd mem List.not_mem_nil, List.nodup_nil⟩

theorem add {catalog : Catalog} (wellKeyed : WellKeyed catalog) (d : Declared) :
    WellKeyed (catalog.add d) := by
  obtain ⟨_, same⟩ | ⟨head, _, added⟩ := catalog.add_cases d
  · rw [same]
    exact wellKeyed
  · rw [added]
    constructor
    · intro p mem
      rcases Keyed.mem_of_mem_putAll mem with old | new
      · exact wellKeyed.keyed p old
      · obtain ⟨l, _, rfl⟩ := List.mem_map.mp new
        rfl
    · exact Keyed.nodup_keys_putAll wellKeyed.nodup

theorem ofSources (visibility : String) (sources : List IndexedSource) :
    WellKeyed (ofSources visibility sources) := by
  rw [ofSources_eq_foldl]
  exact List.foldlRecOn _ _ (WellKeyed.empty visibility) fun _ wellKeyed d _ => wellKeyed.add d

end WellKeyed

end RenderTrace.Catalog
