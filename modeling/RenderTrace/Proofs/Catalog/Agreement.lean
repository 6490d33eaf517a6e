import RenderTrace.Proofs.Catalog.Written
import RenderTrace.Proofs.ClassShape.Unclosed

/-!
# Locations and classes

A catalog keeps the shape of the class that was declared last under a name, but every
location of the classes that were. A location is therefore that of a method of the
class it names as long as the last declaration of the class keeps the method.
-/

namespace RenderTrace.Catalog
open SourceTree Token

/-- The method that the class of a location has under the name of its method. -/
def methodAt? (catalog : Catalog) (l : MethodLocation) : Option Method :=
  (Keyed.get? l.className catalog.classes).bind (·.method? l.method)

/-- The last declaration of a class. -/
def latest? (ds : List WrittenDeclaration) (name : String) : Option WrittenDeclaration :=
  ds.reverse.find? (·.fullName == name)

theorem latest?_append_singleton (ds : List WrittenDeclaration) (d : WrittenDeclaration)
    (name : String) :
    latest? (ds ++ [d]) name = if d.fullName = name then some d else latest? ds name := by
  rw [latest?, List.reverse_append, List.reverse_singleton, List.singleton_append]
  by_cases same : d.fullName = name
  · rw [if_pos same, List.find?_cons_of_pos (by simpa using same)]
  · rw [if_neg same, List.find?_cons_of_neg (by simpa using same), latest?]

theorem exists_latest? {ds : List WrittenDeclaration} {d : WrittenDeclaration} (mem : d ∈ ds) :
    ∃ e, latest? ds d.fullName = some e :=
  Option.isSome_iff_exists.mp (List.find?_isSome.mpr ⟨d, List.mem_reverse.mpr mem, by simp⟩)

/-- The last declaration of every class has the methods of the others. -/
def KeepsMethods (ds : List WrittenDeclaration) : Prop :=
  ∀ d ∈ ds, ∀ name ∈ d.written.methodNames, ∃ e ∈ latest? ds d.fullName, e.Declares name

instance (ds : List WrittenDeclaration) : Decidable (KeepsMethods ds) :=
  inferInstanceAs (Decidable (∀ d ∈ ds, ∀ name ∈ d.written.methodNames, _))

/-- What the catalog of declarations holds: under each name the shape of the last class, and
locations of the methods of any. -/
structure Agrees (visibility : String) (ds : List WrittenDeclaration) (catalog : Catalog) :
    Prop where
  visibility_eq : catalog.visibility = visibility
  classes : ∀ name, Keyed.get? name catalog.classes = (latest? ds name).map (·.shape visibility)
  located : ∀ p ∈ catalog.locations, ∃ d ∈ ds,
    d.fullName = p.2.className ∧ d.Declares p.2.method

namespace Agrees

variable {visibility : String} {ds : List WrittenDeclaration} {catalog : Catalog}

theorem empty (visibility : String) : Agrees visibility [] (empty visibility) :=
  ⟨rfl, fun _ => rfl, fun _ mem => absurd mem List.not_mem_nil⟩

/-- A declaration takes the place of what its name stood for and adds its own locations. -/
theorem add (agrees : Agrees visibility ds catalog) (d : WrittenDeclaration) :
    Agrees visibility (ds ++ [d]) (catalog.add d.toDeclared) := by
  obtain ⟨own, read, named⟩ := d.exists_shape visibility
  have head_eq : (d.shape visibility).head = some own := by rw [read]
  obtain ⟨unreadable, _⟩ | ⟨head, readable, added⟩ := catalog.add_cases d.toDeclared
  · rw [agrees.visibility_eq, head_eq] at unreadable
    exact absurd unreadable (by simp)
  · rw [agrees.visibility_eq] at readable added
    obtain rfl : own = head := Option.some.inj (head_eq.symm.trans readable)
    have name_eq : Catalog.fullName d.namespaceName own.name = d.fullName := by
      rw [named]
      rfl
    rw [added, name_eq]
    constructor
    · rfl
    · intro name
      rw [Keyed.get?_put, agrees.classes name, latest?_append_singleton]
      by_cases same : d.fullName = name
      · rw [if_pos same, if_pos same.symm]
        rfl
      · rw [if_neg same, if_neg (Ne.symm same)]
    · intro p mem
      rcases Keyed.mem_of_mem_putAll mem with old | new
      · obtain ⟨e, declared, located⟩ := agrees.located p old
        exact ⟨e, List.mem_append_left _ declared, located⟩
      · obtain ⟨l, found, rfl⟩ := List.mem_map.mp new
        obtain ⟨class_eq, declares⟩ := d.of_mem_locations found
        exact ⟨d, by simp, (class_eq.trans name_eq).symm, declares⟩

/-- Adding declarations one after another keeps the agreement. -/
theorem foldl (agrees : Agrees visibility ds catalog) (later : List WrittenDeclaration) :
    Agrees visibility (ds ++ later) ((later.map (·.toDeclared)).foldl Catalog.add catalog) := by
  induction later generalizing ds catalog with
  | nil =>
      rw [List.append_nil]
      exact agrees
  | cons d later ih =>
      rw [List.append_cons]
      exact ih (agrees.add d)

theorem ofSources {sources : List IndexedSource}
    (wellFormed : sources.flatMap (·.declared) = ds.map (·.toDeclared)) :
    Agrees visibility ds (ofSources visibility sources) := by
  rw [ofSources_eq_foldl, wellFormed]
  exact (Agrees.empty visibility).foldl ds

/-- A location is that of a method of its class exactly when the last declaration of the class has
the method. -/
theorem methodAt?_isSome_iff (agrees : Agrees visibility ds catalog) (l : MethodLocation) :
    (catalog.methodAt? l).isSome ↔ ∃ e ∈ latest? ds l.className, e.Declares l.method := by
  rw [methodAt?, agrees.classes l.className]
  cases latest? ds l.className with
  | none => simp
  | some e => simpa using e.method?_isSome_iff visibility l.method

end Agrees

/-- Where sources with well-formed classes are indexed one after another, the class of every
location is held. It has the method of the location exactly when the last declaration of the class
has it, which is always so when the last declaration has the methods of the others. -/
theorem methodAt?_held (visibility : String) {sources : List IndexedSource}
    {ds : List WrittenDeclaration}
    (wellFormed : sources.flatMap (·.declared) = ds.map (·.toDeclared))
    {p : (String × String) × MethodLocation} (held : p ∈ (ofSources visibility sources).locations) :
    (Keyed.get? p.2.className (ofSources visibility sources).classes).isSome ∧
      (((ofSources visibility sources).methodAt? p.2).isSome ↔
        ∃ e ∈ latest? ds p.2.className, e.Declares p.2.method) ∧
      (KeepsMethods ds → ((ofSources visibility sources).methodAt? p.2).isSome) := by
  have agrees : Agrees visibility ds (ofSources visibility sources) := Agrees.ofSources wellFormed
  obtain ⟨d, mem, class_eq, name, written, same⟩ := agrees.located p held
  refine ⟨?_, agrees.methodAt?_isSome_iff p.2, ?_⟩
  · obtain ⟨e, latest⟩ := exists_latest? mem
    rw [agrees.classes, ← class_eq, latest]
    rfl
  · intro keeps
    obtain ⟨e, latest, kept, keeps_name, kept_eq⟩ := keeps d mem name written
    rw [agrees.methodAt?_isSome_iff, ← class_eq]
    exact ⟨e, latest, kept, keeps_name, kept_eq.trans same⟩

/-- A method on the first line that does nothing. -/
def idleMethod (name : String) (isName : name ≠ "&") : WrittenMethod where
  modifiers := []
  keyword := ⟨.function, "function", 1⟩
  reference := none
  name := ⟨.name, name, 1⟩
  openLine := 1
  followed := []
  last := none
  closeLine := 1
  returnType := none
  body := .block 1 [] 1 bracesBalanced_nil
  modifiers_areModifiers := areMethodModifiers_nil
  keyword_isFunction := by decide
  name_isName := ⟨rfl, isName⟩

/-- The empty class on one line, with methods. -/
def lineClass (methods : List WrittenMethod) : WrittenClass :=
  { emptyClass with members := methods.map .method, closeLine := 1 }

/-- The attribute `#[B(C::class)]` in front of a class on the first line. -/
def attributeNode : Node :=
  Node.ofChildren "attribute_list" (some "attributes")
    [Node.ofChildren "attribute_group" none [leafNode 0 "#[" 6 8,
      Node.ofChildren "attribute" none [leafNode 0 "name" 8 9,
        Node.ofChildren "arguments" (some "parameters") [leafNode 0 "(" 9 10,
          Node.ofChildren "argument" none [Node.ofChildren "class_constant_access_expression" none
            [leafNode 0 "name" 10 11, leafNode 0 "::" 11 13, leafNode 0 "name" 13 18]],
          leafNode 0 ")" 18 19]],
      leafNode 0 "]" 19 20]]

def shortNode : Node :=
  lineClassNode 0 [attributeNode] 21 1 [idleNode 0 31] 48

/-- A file with a class that has an attribute, which names another class. -/
def shortSource : IndexedSource :=
  .ofText "a.php" "<?php #[B(C::class)] class A \x7b function f() \x7b\x7d \x7d"
    (Node.ofChildren "program" none [leafNode 0 "php_tag" 0 5, shortNode])

def longNode : Node :=
  lineClassNode 0 [] 6 1 [idleNode 0 16, idleNode 0 32] 49

/-- The file with one more method. -/
def longSource : IndexedSource :=
  .ofText "a.php" "<?php class A \x7b function F() \x7b\x7d function g() \x7b\x7d \x7d"
    (Node.ofChildren "program" none [leafNode 0 "php_tag" 0 5, longNode])

def shortDeclaration : WrittenDeclaration where
  source := shortSource.source
  file := shortSource.file
  namespaceName := none
  node := shortNode
  attributes := [mark "#[" 1, ⟨.name, "B", 1⟩, mark "(" 1, ⟨.name, "C", 1⟩,
    ⟨.doubleColon, "::", 1⟩, ⟨.form .classForm, "class", 1⟩, mark ")" 1, mark "]" 1]
  written := lineClass [idleMethod "f" (by decide)]
  attributes_areLeadIn := by decide
  node_spells := by decide +kernel
  methods_named := by decide +kernel

def longDeclaration : WrittenDeclaration where
  source := longSource.source
  file := longSource.file
  namespaceName := none
  node := longNode
  attributes := []
  written := lineClass [idleMethod "F" (by decide), idleMethod "g" (by decide)]
  attributes_areLeadIn := by decide
  node_spells := by decide +kernel
  methods_named := by decide +kernel

theorem declared_shortSource : shortSource.declared = [shortDeclaration.toDeclared] := rfl

theorem declared_longSource : longSource.declared = [longDeclaration.toDeclared] := rfl

theorem methodAt?_held_longSource :
    KeepsMethods [shortDeclaration, longDeclaration] ∧
      ((ofSources "public" [shortSource, longSource]).methodAt?
        ⟨"A", "F", "a.php", 1, 1⟩).isSome := by
  have wellFormed : [shortSource, longSource].flatMap (·.declared) =
      [shortDeclaration, longDeclaration].map (·.toDeclared) := by
    simp [declared_shortSource, declared_longSource]
  have keeps : KeepsMethods [shortDeclaration, longDeclaration] := by decide +kernel
  have held : (("a", "f"), ⟨"A", "F", "a.php", 1, 1⟩) ∈
      (ofSources "public" [shortSource, longSource]).locations := by
    decide +kernel
  exact ⟨keeps, (methodAt?_held "public" wellFormed held).2.2 keeps⟩

/-- The location of a method stays where the file is indexed again without it. -/
theorem methodAt?_shortSource_stale :
    [longSource, shortSource].flatMap (·.declared) =
        [longDeclaration, shortDeclaration].map (·.toDeclared) ∧
      ¬ ∀ p ∈ (ofSources "public" [longSource, shortSource]).locations,
        ((ofSources "public" [longSource, shortSource]).methodAt? p.2).isSome := by
  constructor
  · simp [declared_shortSource, declared_longSource]
  · decide +kernel

end RenderTrace.Catalog
