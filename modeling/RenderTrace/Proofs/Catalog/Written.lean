import RenderTrace.Proofs.Catalog.Indexed
import RenderTrace.Proofs.ClassShape.RoundTrip

/-!
# Class declarations as they are written

A class node of a source is well formed when its tokens spell a class, after the
attributes of the class, and the method nodes of its body are named as the methods
of the class, in order. Such a class is read with all its methods, and each of its
locations is the place of one of them.
-/

namespace RenderTrace

/-- The names of the methods, in order. -/
def WrittenClass.methodNames (c : WrittenClass) : List String :=
  (c.members.filterMap (·.method?)).map (·.name.text)

namespace Catalog
open SourceTree ClassShape Token

/-- The name of a method node. -/
def methodName? (source : Source) (member : Node) : Option String :=
  if member.type == "method_declaration" then
    (member.child? "name").map (·.text source)
  else none

/-- A class declaration with the class that it spells. -/
structure WrittenDeclaration extends Declared where
  attributes : List Token
  written : WrittenClass
  attributes_areLeadIn : isLeadIn attributes
  node_spells : (tokens source node).filter (!·.isTrivia) = attributes ++ written.tokens
  methods_named : (node.child? "body").map (fun body =>
    body.children.filterMap (methodName? source)) = some written.methodNames

theorem map_method_location? (source : Source) (file className : String) (member : Node) :
    (location? source file className member).map (·.method) = methodName? source member := by
  rw [location?, methodName?]
  split
  · rw [Option.map_map]
    rfl
  · rfl

theorem className_of_mem_locationsOf {source : Source} {file className : String} {n : Node}
    {l : MethodLocation} (mem : l ∈ locationsOf source file className n) :
    l.className = className := by
  rw [locationsOf] at mem
  split at mem
  · exact absurd mem List.not_mem_nil
  · obtain ⟨member, _, located⟩ := List.mem_filterMap.mp mem
    rw [location?] at located
    split at located
    · obtain ⟨_, _, rfl⟩ := Option.map_eq_some_iff.mp located
      rfl
    · exact absurd located (by simp)

namespace WrittenDeclaration

variable (d : WrittenDeclaration)

/-- The full name of the class. -/
def fullName : String :=
  Catalog.fullName d.namespaceName d.written.name.text

/-- The class has a method of the given name, which may differ in letter case. -/
def Declares (method : String) : Prop :=
  ∃ name ∈ d.written.methodNames, Text.lower name = Text.lower method

instance (method : String) : Decidable (d.Declares method) :=
  inferInstanceAs (Decidable (∃ name ∈ d.written.methodNames, _))

/-- The class is read under its name, with its methods. -/
theorem exists_shape (visibility : String) :
    ∃ head, d.shape visibility = ⟨some head, d.written.methods visibility⟩ ∧
      head.name = d.written.name.text := by
  have opened : d.attributes ++ d.written.tokens = d.attributes ++ (d.written.modifiers ++
      d.written.keyword :: d.written.name :: d.written.header ++
        mark openBrace d.written.openLine ::
          (d.written.members.flatMap (·.tokens) ++
            mark closeBrace d.written.closeLine :: [])) := by
    simp [WrittenClass.tokens]
  obtain ⟨offset, read⟩ := d.written.exists_read_opened visibility d.attributes_areLeadIn rfl
    (d.node_spells.trans opened)
  rw [methodsFrom_members d.written.members d.written.closeLine [] isSettled_nil] at read
  exact ⟨_, read, rfl⟩

/-- The methods that are read have the names of those that are written. -/
theorem method?_isSome_iff (visibility method : String) :
    ((d.shape visibility).method? method).isSome ↔ d.Declares method := by
  obtain ⟨head, read, _⟩ := d.exists_shape visibility
  rw [read, ClassShape.method?, List.find?_isSome, Declares, WrittenClass.methodNames]
  simp only [WrittenClass.methods, List.mem_map, ClassShape.isNamed, beq_iff_eq]
  constructor
  · rintro ⟨_, ⟨m, mem, rfl⟩, same⟩
    exact ⟨m.name.text, ⟨m, mem, rfl⟩, same⟩
  · rintro ⟨_, ⟨m, mem, rfl⟩, same⟩
    exact ⟨m.shape visibility, ⟨m, mem, rfl⟩, same⟩

theorem map_method_locations (name : String) :
    (d.locations name).map (·.method) = d.written.methodNames := by
  obtain ⟨body, body_eq, named⟩ := Option.map_eq_some_iff.mp d.methods_named
  rw [Declared.locations, locationsOf, body_eq, List.map_filterMap, ← named]
  simp only [map_method_location?]

/-- Every location of the class is that of one of its methods. -/
theorem of_mem_locations {name : String} {l : MethodLocation} (mem : l ∈ d.locations name) :
    l.className = Catalog.fullName d.namespaceName name ∧ d.Declares l.method := by
  constructor
  · exact className_of_mem_locationsOf mem
  · refine ⟨l.method, ?_, rfl⟩
    rw [← d.map_method_locations name]
    exact List.mem_map_of_mem mem

end WrittenDeclaration

end Catalog

end RenderTrace
