import Mathlib.Data.List.Basic
import RenderTrace.Catalog
import RenderTrace.Proofs.SourceTree.Nodes

/-!
# The class nodes of a tree

Indexing descends to the outermost class nodes, at the top level and in the bodies of
namespaces. Where the class nodes of every namespace stand in its body, some are met
if there are any, and a single one is met whatever surrounds it. A single one that
stands in a namespace, but not in its body, is not met.
-/

namespace RenderTrace.Catalog
open SourceTree

mutual

/-- The class nodes at or below a node, those in other class nodes among them. -/
def classNodes : Node → List Node
  | ⟨type, start, stop, row, endRow, isMissing, field, children⟩ =>
    if isClassNode ⟨type, start, stop, row, endRow, isMissing, field, children⟩ then
      ⟨type, start, stop, row, endRow, isMissing, field, children⟩ :: classNodesOf children
    else classNodesOf children

/-- The class nodes of several nodes. -/
def classNodesOf : List Node → List Node
  | [] => []
  | n :: rest => classNodes n ++ classNodesOf rest

end

/-- The class nodes of a namespace stand in its body; a namespace that ends at a semicolon holds
none, since what belongs to it stands beside it. -/
def ClassesInBodies (nodes : List Node) : Prop :=
  ∀ n ∈ nodes, n.type = "namespace_definition" →
    classNodesOf n.children = classNodesOf ((n.child? "body").toList.flatMap (·.children))

/-- Some of the elements, and at least one of them if there are any. -/
def Represents (met all : List Node) : Prop :=
  met.Sublist all ∧ (met = [] → all = [])

theorem Represents.append {a b all others : List Node} (first : Represents a all)
    (second : Represents b others) : Represents (a ++ b) (all ++ others) := by
  refine ⟨first.1.append second.1, fun none => ?_⟩
  obtain ⟨noFirst, noSecond⟩ := List.append_eq_nil_iff.mp none
  rw [first.2 noFirst, second.2 noSecond, List.append_nil]

theorem Represents.eq_singleton {a : List Node} {n : Node} (represents : Represents a [n]) :
    a = [n] := by
  rcases Nat.lt_or_eq_of_le represents.1.length_le with less | equal
  · have none : a = [] := List.eq_nil_of_length_eq_zero (Nat.lt_one_iff.mp less)
    exact absurd (represents.2 none) (List.cons_ne_nil n [])
  · exact represents.1.eq_of_length equal

mutual

theorem represents_outermostClasses : ∀ n : Node, Represents (outermostClasses n) (classNodes n)
  | ⟨type, start, stop, row, endRow, isMissing, field, children⟩ => by
      rw [outermostClasses, classNodes]
      split
      · exact ⟨List.singleton_sublist.mpr List.mem_cons_self, fun none => nomatch none⟩
      · exact represents_outermostClassesOf children

theorem represents_outermostClassesOf : ∀ nodes : List Node,
    Represents (outermostClassesOf nodes) (classNodesOf nodes)
  | [] => ⟨List.Sublist.refl [], fun _ => rfl⟩
  | n :: rest => by
      rw [outermostClassesOf, classNodesOf]
      exact (represents_outermostClasses n).append (represents_outermostClassesOf rest)

end

theorem outermostClassesOf_eq_nil {trees : List Node} (none : classNodesOf trees = []) :
    outermostClassesOf trees = [] :=
  List.sublist_nil.mp (none ▸ (represents_outermostClassesOf trees).1)

theorem outermostClassesOf_eq_flatMap (trees : List Node) :
    outermostClassesOf trees = trees.flatMap outermostClasses := by
  induction trees with
  | nil => rfl
  | cons n rest ih => rw [outermostClassesOf, ih, List.flatMap_cons]

theorem classNodes_of_not_class {n : Node} (other : isClassNode n = false) :
    classNodes n = classNodesOf n.children := by
  obtain ⟨type, start, stop, row, endRow, isMissing, field, children⟩ := n
  rw [classNodes, other, if_neg Bool.false_ne_true]

theorem classNodes_of_class {n : Node} (isClass : isClassNode n) :
    classNodes n = n :: classNodesOf n.children := by
  obtain ⟨type, start, stop, row, endRow, isMissing, field, children⟩ := n
  rw [classNodes, if_pos isClass]

theorem classNodesOf_append (a b : List Node) :
    classNodesOf (a ++ b) = classNodesOf a ++ classNodesOf b := by
  induction a with
  | nil => rfl
  | cons n rest ih => rw [List.cons_append, classNodesOf, ih, classNodesOf, List.append_assoc]

mutual

theorem classNodes_eq_filter : ∀ n : Node, classNodes n = n.nodes.filter isClassNode
  | ⟨type, start, stop, row, endRow, isMissing, field, children⟩ => by
      rw [classNodes, Node.nodes, List.filter_cons, classNodesOf_eq_filter children]

/-- The class nodes of several nodes are found among the nodes at and below them. -/
theorem classNodesOf_eq_filter : ∀ trees : List Node,
    classNodesOf trees = (Node.nodesOf trees).filter isClassNode
  | [] => rfl
  | n :: rest => by
      rw [classNodesOf, Node.nodesOf, List.filter_append, classNodes_eq_filter n,
        classNodesOf_eq_filter rest]

end

theorem classNodesOf_children_sublist (n : Node) :
    (classNodesOf n.children).Sublist (classNodes n) := by
  cases isClass : isClassNode n with
  | true =>
      rw [classNodes_of_class isClass]
      exact List.sublist_cons_self n _
  | false =>
      rw [classNodes_of_not_class isClass]

theorem classNodes_sublist_of_mem {n : Node} {nodes : List Node} (mem : n ∈ nodes) :
    (classNodes n).Sublist (classNodesOf nodes) := by
  obtain ⟨before, after, rfl⟩ := List.append_of_mem mem
  rw [classNodesOf_append, classNodesOf]
  exact (List.sublist_append_left _ _).trans (List.sublist_append_right _ _)

/-- The nodes that indexing looks through for a top-level node: what is in the body of a namespace,
and any other node itself. -/
def searched (n : Node) : List Node :=
  if n.type == "namespace_definition" then (n.child? "body").toList.flatMap (·.children) else [n]

/-- The declarations of a source are the outermost classes that are looked at. -/
theorem map_snd_declarations (source : Source) (current : Option String) (nodes : List Node) :
    (declarations source current nodes).map (·.2) =
      outermostClassesOf (nodes.flatMap searched) := by
  have snd (ns : Option String) (found : List Node) :
      (found.map fun n => (ns, n)).map (·.2) = found := by
    rw [List.map_map]
    exact List.map_id found
  induction nodes generalizing current with
  | nil => rfl
  | cons n rest ih =>
      rw [declarations, List.flatMap_cons, outermostClassesOf_eq_flatMap, List.flatMap_append,
        ← outermostClassesOf_eq_flatMap, ← outermostClassesOf_eq_flatMap, searched]
      split
      · dsimp only
        cases n.child? "body" with
        | none => exact ih _
        | some body =>
            rw [List.map_append, snd, ih, Option.toList_some, List.flatMap_singleton]
      · rw [List.map_append, snd, ih, outermostClassesOf, outermostClassesOf, List.append_nil]

theorem classNodesOf_searched_sublist (n : Node) :
    (classNodesOf (searched n)).Sublist (classNodes n) := by
  rw [searched]
  split
  · cases found : n.child? "body" with
    | none => exact List.nil_sublist _
    | some body =>
        have mem : body ∈ n.children := List.mem_of_find?_eq_some found
        rw [Option.toList_some, List.flatMap_singleton]
        exact (classNodesOf_children_sublist body).trans
          ((classNodes_sublist_of_mem mem).trans (classNodesOf_children_sublist n))
  · rw [classNodesOf, classNodesOf, List.append_nil]

theorem classNodesOf_flatMap_searched_sublist (nodes : List Node) :
    (classNodesOf (nodes.flatMap searched)).Sublist (classNodesOf nodes) := by
  induction nodes with
  | nil => exact List.Sublist.refl _
  | cons n rest ih =>
      rw [List.flatMap_cons, classNodesOf_append, classNodesOf]
      exact (classNodesOf_searched_sublist n).append ih

theorem classNodesOf_searched_eq_iff (n : Node) :
    classNodesOf (searched n) = classNodes n ↔ (n.type = "namespace_definition" →
      classNodesOf n.children = classNodesOf ((n.child? "body").toList.flatMap (·.children))) := by
  rw [searched]
  split
  next isNamespace =>
    have type : n.type = "namespace_definition" := by simpa using isNamespace
    have other : isClassNode n = false := by simp [isClassNode, type]
    rw [classNodes_of_not_class other]
    exact ⟨fun same _ => same.symm, fun same => (same type).symm⟩
  next isNamespace =>
    rw [classNodesOf, classNodesOf, List.append_nil]
    exact iff_of_true rfl fun type => absurd (beq_iff_eq.mpr type) isNamespace

theorem append_eq_append_iff_of_sublist {a b all others : List Node} (first : a.Sublist all)
    (second : b.Sublist others) : a ++ b = all ++ others ↔ a = all ∧ b = others := by
  constructor
  · intro same
    have lengths := congrArg List.length same
    rw [List.length_append, List.length_append] at lengths
    have less := first.length_le
    have less' := second.length_le
    exact List.append_inj same (by omega)
  · rintro ⟨rfl, rfl⟩
    rfl

/-- The class nodes of namespaces stand in their bodies exactly when every class node is looked
at. -/
theorem classesInBodies_iff (nodes : List Node) :
    ClassesInBodies nodes ↔ classNodesOf (nodes.flatMap searched) = classNodesOf nodes := by
  induction nodes with
  | nil => exact iff_of_true (fun _ mem => absurd mem List.not_mem_nil) rfl
  | cons n rest ih =>
      have parts : classNodesOf ((n :: rest).flatMap searched) = classNodesOf (n :: rest) ↔
          classNodesOf (searched n) = classNodes n ∧
            classNodesOf (rest.flatMap searched) = classNodesOf rest := by
        rw [List.flatMap_cons, classNodesOf_append, classNodesOf]
        exact append_eq_append_iff_of_sublist (classNodesOf_searched_sublist n)
          (classNodesOf_flatMap_searched_sublist rest)
      rw [parts, classNodesOf_searched_eq_iff, ← ih]
      exact List.forall_mem_cons

/-- The declarations of a source represent its class nodes. -/
theorem represents_declarations (source : Source) (current : Option String) {nodes : List Node}
    (inBodies : ClassesInBodies nodes) :
    Represents ((declarations source current nodes).map (·.2)) (classNodesOf nodes) := by
  rw [map_snd_declarations, ← (classesInBodies_iff nodes).mp inBodies]
  exact represents_outermostClassesOf _

/-- The one class node of a source is its one declaration. -/
theorem exists_declarations_eq (source : Source) {nodes : List Node} {n : Node}
    (inBodies : ClassesInBodies nodes) (single : classNodesOf nodes = [n]) :
    ∃ ns, declarations source none nodes = [(ns, n)] := by
  have represents := represents_declarations source none inBodies
  rw [single] at represents
  obtain ⟨⟨ns, m⟩, one, rfl⟩ := List.map_eq_singleton_iff.mp represents.eq_singleton
  exact ⟨ns, one⟩

/-- The one class node of a source is no declaration where it stands in a namespace and not in the
body of it. -/
theorem declarations_eq_nil {source : Source} {nodes : List Node} {n : Node}
    (outside : ¬ ClassesInBodies nodes) (single : classNodesOf nodes = [n]) :
    declarations source none nodes = [] := by
  have part := classNodesOf_flatMap_searched_sublist nodes
  have others : classNodesOf (nodes.flatMap searched) ≠ classNodesOf nodes :=
    fun same => outside ((classesInBodies_iff nodes).mpr same)
  rw [single] at part others
  have nothing : classNodesOf (nodes.flatMap searched) = [] :=
    (List.sublist_singleton.mp part).resolve_right others
  have unmet := outermostClassesOf_eq_nil nothing
  rw [← map_snd_declarations source none nodes, List.map_eq_nil_iff] at unmet
  exact unmet

end RenderTrace.Catalog
