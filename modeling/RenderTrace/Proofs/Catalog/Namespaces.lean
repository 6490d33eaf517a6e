import RenderTrace.Proofs.Catalog.ClassNodes
import RenderTrace.Proofs.Catalog.Indexed
import RenderTrace.Proofs.SourceTree.Placed

/-!
# The namespaces of classes

Indexing goes along the top level of a source, carries the namespace that stands there and
descends below every node. What it reads is said here of the places of the nodes alone: a
class is read where it lies in no other, and it belongs to the namespace whose braces hold
it at the top level, or else to the last one begun before it without braces.
-/

namespace RenderTrace.Catalog
open SourceTree Node Token

/-! ## Namespaces -/

/-- The name of a namespace; some have none. -/
def namespaceName? (source : Source) (n : Node) : Option String :=
  (n.child? "name").map (·.text source)

/-- A namespace that holds what is inside its braces. -/
def isBraced (n : Node) : Bool :=
  n.type == "namespace_definition" && (n.child? "body").isSome

/-- A namespace that holds what follows. -/
def isUnbraced (n : Node) : Bool :=
  n.type == "namespace_definition" && (n.child? "body").isNone

/-- The namespace that stands after top-level nodes: that of the last one without braces. -/
def standingNamespace (source : Source) (before : List Node) : Option String :=
  (before.filter isUnbraced).getLast?.bind (namespaceName? source)

/-- A node that declares a class and lies in no other such node. -/
def isOutermostClass (p : Placed) : Bool :=
  isClassNode p.node && p.outer.all fun n => !isClassNode n

/-- The namespace to which a node belongs: the one in whose braces it lies at the top level, or else
the one that stands there. -/
def namespaceOf (source : Source) (p : Placed) : Option String :=
  if isBraced p.top then namespaceName? source p.top else standingNamespace source p.before

/-- The outermost classes of a source with their namespaces, in the order of the source. -/
def IndexedSource.outermost (s : IndexedSource) : List Declared :=
  ((placed s.root).filter isOutermostClass).map fun p =>
    ⟨s.source, s.file, namespaceOf s.source p, p.node⟩

/-- The source with other nodes at the top level. -/
def IndexedSource.withNodes (s : IndexedSource) (nodes : List Node) : IndexedSource :=
  { s with root := { s.root with children := nodes } }

variable {source : Source} {n : Node}

theorem standingNamespace_nil (source : Source) : standingNamespace source [] = none :=
  rfl

theorem standingNamespace_append_singleton (source : Source) (before : List Node) (n : Node) :
    standingNamespace source (before ++ [n]) =
      if isUnbraced n then namespaceName? source n else standingNamespace source before := by
  rw [standingNamespace, List.filter_append]
  cases unbraced : isUnbraced n with
  | true => rw [List.filter_cons_of_pos unbraced, List.filter_nil, List.getLast?_concat,
      Option.bind_some, if_pos rfl]
  | false => rw [List.filter_cons_of_neg (by simp [unbraced]), List.filter_nil, List.append_nil,
      if_neg Bool.false_ne_true, standingNamespace]

/-! ## The classes at a top-level node -/

theorem outermostClasses_eq (n : Node) :
    outermostClasses n = if isClassNode n then [n] else outermostClassesOf n.children := by
  obtain ⟨type, start, stop, row, endRow, isMissing, field, children⟩ := n
  rw [outermostClasses]

/-- The outermost classes at or below a node that lies in no class are those it is searched for. -/
theorem map_filter_placedAt {γ : Type} (g : Placed → γ) (f : Node → γ) {before : List Node}
    {top : Node} {outer : List Node} (same : ∀ outer m, g ⟨before, top, outer, m⟩ = f m)
    (inNone : outer.all fun m => !isClassNode m) (n : Node) :
    ((placedAt before top outer n).filter isOutermostClass).map g = (outermostClasses n).map f := by
  induction n using Node.induction generalizing outer with
  | node n below =>
      rw [placedAt_eq, outermostClasses_eq]
      cases isClass : isClassNode n with
      | true =>
          have here : isOutermostClass ⟨before, top, outer, n⟩ := by
            rw [isOutermostClass, isClass, inNone, Bool.and_self]
          -- All that is below lies in this class.
          have deeper : (placedBelow before top (outer ++ [n]) n.children).filter
              isOutermostClass = [] := by
            rw [List.filter_eq_nil_iff, placedBelow_eq_flatMap]
            intro p mem outermost
            obtain ⟨c, _, mem⟩ := List.mem_flatMap.mp mem
            have inside : n ∈ p.outer :=
              (of_mem_placedAt mem).2.subset (List.mem_append_right outer List.mem_cons_self)
            have other := List.all_eq_true.mp (Bool.and_eq_true_iff.mp outermost).2 n inside
            rw [isClass] at other
            exact Bool.false_ne_true other
          rw [List.filter_cons_of_pos here, deeper, if_pos rfl, List.map_singleton,
            List.map_singleton, same]
      | false =>
          have notHere : ¬ isOutermostClass ⟨before, top, outer, n⟩ := by
            simp [isOutermostClass, isClass]
          have inNone : (outer ++ [n]).all fun m => !isClassNode m := by
            simpa [isClass] using inNone
          rw [List.filter_cons_of_neg notHere, if_neg Bool.false_ne_true, placedBelow_eq_flatMap,
            outermostClassesOf_eq_flatMap, List.filter_flatMap, List.map_flatMap, List.map_flatMap]
          exact List.flatMap_congr fun c child => below c child inNone

/-! ## The body of a namespace -/

/-- A node whose class nodes lie below its body has none before the body and none after it, and the
body is none. -/
theorem exists_eq_append_body {body : Node} (found : n.child? "body" = some body)
    (inBody : classNodesOf n.children = classNodesOf body.children) :
    isClassNode body = false ∧ ∃ front back, n.children = front ++ body :: back ∧
      classNodesOf front = [] ∧ classNodesOf back = [] := by
  obtain ⟨front, back, split⟩ := List.append_of_mem (List.mem_of_find?_eq_some found)
  have parts : classNodesOf n.children =
      classNodesOf front ++ (classNodes body ++ classNodesOf back) := by
    rw [split, classNodesOf_append, classNodesOf]
  have total := congrArg List.length (parts.symm.trans inBody)
  rw [List.length_append, List.length_append] at total
  cases isClass : isClassNode body with
  | true =>
      rw [classNodes_of_class isClass, List.length_cons] at total
      omega
  | false =>
      rw [classNodes_of_not_class isClass] at total
      exact ⟨rfl, front, back, split, List.eq_nil_of_length_eq_zero (by omega),
        List.eq_nil_of_length_eq_zero (by omega)⟩

/-- Where the class nodes lie below the body, the search below the body meets all that the search
below the whole node meets. -/
theorem outermostClassesOf_children {body : Node} (found : n.child? "body" = some body)
    (inBody : classNodesOf n.children = classNodesOf body.children) :
    outermostClassesOf n.children = outermostClassesOf body.children := by
  obtain ⟨notClass, front, back, split, noFront, noBack⟩ := exists_eq_append_body found inBody
  have noFront : front.flatMap outermostClasses = [] := by
    rw [← outermostClassesOf_eq_flatMap, outermostClassesOf_eq_nil noFront]
  rw [split, outermostClassesOf_eq_flatMap, List.flatMap_append, noFront, List.nil_append,
    List.flatMap_cons, ← outermostClassesOf_eq_flatMap, outermostClassesOf_eq_nil noBack,
    List.append_nil, outermostClasses_eq, notClass, if_neg Bool.false_ne_true]

/-! ## Along the top level -/

/-- One top-level node is searched, and then the rest with the namespace that stands there. -/
theorem declarations_cons (source : Source) (current : Option String) (n : Node)
    (rest : List Node) :
    declarations source current (n :: rest) =
      declarations source current [n] ++
        declarations source (if isUnbraced n then namespaceName? source n else current) rest := by
  rw [declarations, declarations, isUnbraced]
  cases n.type == "namespace_definition" with
  | false => simp [declarations]
  | true =>
      cases n.child? "body" with
      | none => simp [declarations, namespaceName?]
      | some body => simp [declarations]

/-- What is read of a namespace does not depend on the one that stands before it. -/
theorem declarations_singleton_congr (source : Source) (current other : Option String)
    (isNamespace : n.type = "namespace_definition") :
    declarations source current [n] = declarations source other [n] := by
  simp only [declarations, isNamespace, beq_self_eq_true, if_true]

/-- Of a top-level node the outermost classes are read: with its own namespace if it has braces, and
else with the one that stands there. -/
theorem declarations_singleton (source : Source) (current : Option String)
    (inBody : ClassesInBodies [n]) :
    declarations source current [n] = (outermostClasses n).map fun c =>
      (if isBraced n then namespaceName? source n else current, c) := by
  rw [declarations, isBraced]
  by_cases isNamespace : n.type = "namespace_definition"
  · have inBody := inBody n List.mem_cons_self isNamespace
    have other : isClassNode n = false := by simp [isClassNode, isNamespace]
    rw [if_pos (beq_iff_eq.mpr isNamespace), outermostClasses_eq, other,
      if_neg Bool.false_ne_true, beq_iff_eq.mpr isNamespace, Bool.true_and]
    cases found : n.child? "body" with
    | none =>
        rw [found] at inBody
        rw [outermostClassesOf_eq_nil inBody]
        rfl
    | some body =>
        rw [found, Option.toList_some, List.flatMap_singleton] at inBody
        rw [outermostClassesOf_children found inBody]
        exact List.append_nil _
  · have other : (n.type == "namespace_definition") = false := beq_eq_false_iff_ne.mpr isNamespace
    rw [other, if_neg Bool.false_ne_true, Bool.false_and, if_neg Bool.false_ne_true, declarations,
      List.append_nil]

/-- Nodes that come later are read with the namespace that stands after those before them. -/
theorem declarations_append (source : Source) (before nodes rest : List Node) :
    declarations source (standingNamespace source before) (nodes ++ rest) =
      declarations source (standingNamespace source before) nodes ++
        declarations source (standingNamespace source (before ++ nodes)) rest := by
  induction nodes generalizing before with
  | nil => rw [List.append_nil, declarations, List.nil_append, List.nil_append]
  | cons n nodes ih =>
      rw [List.cons_append, declarations_cons, declarations_cons _ _ n nodes,
        ← standingNamespace_append_singleton, ih, List.append_assoc, List.append_assoc,
        List.singleton_append]

/-- The loop along the top level reads the outermost classes with the namespaces they belong to. -/
theorem declarations_eq_map_placedAfter (source : Source) (before : List Node)
    {nodes : List Node} (inBodies : ClassesInBodies nodes) :
    declarations source (standingNamespace source before) nodes =
      ((placedAfter before nodes).filter isOutermostClass).map fun p =>
        (namespaceOf source p, p.node) := by
  induction nodes generalizing before with
  | nil => rfl
  | cons n rest ih =>
      obtain ⟨inBody, inBodies⟩ := List.forall_mem_cons.mp inBodies
      rw [declarations_cons, ← standingNamespace_append_singleton, ih _ inBodies, placedAfter,
        List.filter_append, List.map_append,
        map_filter_placedAt _ (fun c => (namespaceOf source ⟨before, n, [], c⟩, c))
          (fun _ _ => rfl) List.all_nil,
        declarations_singleton source _ (List.forall_mem_singleton.mpr inBody)]
      rfl

theorem not_mem_placedAt_of_classNodesOf_eq_nil {before outer trees : List Node} {top : Node}
    {p : Placed} (none : classNodesOf trees = []) (isClass : isClassNode p.node) :
    p ∉ trees.flatMap (placedAt before top outer) := by
  intro mem
  obtain ⟨c, there, mem⟩ := List.mem_flatMap.mp mem
  have inside : p.node ∈ c.nodes := by
    rw [← map_node_placedAt before top outer c]
    exact List.mem_map_of_mem mem
  have listed : p.node ∈ classNodesOf trees := by
    rw [classNodesOf_eq_filter]
    exact List.mem_filter.mpr ⟨mem_nodesOf.mpr ⟨c, there, inside⟩, isClass⟩
  rw [none] at listed
  exact List.not_mem_nil listed

/-- A class that is read from a namespace with braces lies below the body of the namespace. -/
theorem exists_outer_eq_body {before : List Node} {n : Node} {p : Placed}
    (inBody : ClassesInBodies [n]) (mem : p ∈ placedAt before n [] n)
    (isClass : isClassNode p.node) (braced : isBraced n) :
    ∃ body inner, n.child? "body" = some body ∧ p.outer = n :: body :: inner := by
  obtain ⟨type, hasBody⟩ := Bool.and_eq_true_iff.mp braced
  obtain ⟨body, found⟩ := Option.isSome_iff_exists.mp hasBody
  have inBody := inBody n List.mem_cons_self (beq_iff_eq.mp type)
  rw [found, Option.toList_some, List.flatMap_singleton] at inBody
  obtain ⟨notClass, front, back, split, noFront, noBack⟩ := exists_eq_append_body found inBody
  rw [placedAt_eq, List.nil_append, placedBelow_eq_flatMap, split, List.flatMap_append,
    List.flatMap_cons, List.mem_cons, List.mem_append, List.mem_append] at mem
  rcases mem with rfl | front | within | back
  · rw [isClassNode, beq_iff_eq.mp type] at isClass
    exact absurd isClass (by decide)
  · exact absurd front (not_mem_placedAt_of_classNodesOf_eq_nil noFront isClass)
  · rw [placedAt_eq, List.mem_cons, placedBelow_eq_flatMap, List.mem_flatMap] at within
    obtain rfl | ⟨c, _, within⟩ := within
    · rw [notClass] at isClass
      exact absurd isClass Bool.false_ne_true
    · obtain ⟨inner, outer⟩ := (of_mem_placedAt within).2
      exact ⟨body, inner, found, outer.symm⟩
  · exact absurd back (not_mem_placedAt_of_classNodesOf_eq_nil noBack isClass)

/-! ## What is stored -/

namespace Declared

/-- The class under its full name, if its name can be read. -/
def record? (visibility : String) (d : Declared) : Option (String × ClassShape) :=
  (d.shape visibility).head.map fun head =>
    (fullName d.namespaceName head.name, d.shape visibility)

/-- The locations of the methods of the class under their keys, if its name can be read. -/
def records (visibility : String) (d : Declared) : List ((String × String) × MethodLocation) :=
  (d.shape visibility).head.toList.flatMap fun head =>
    (d.locations head.name).map fun l => (locationKey l, l)

end Declared

theorem add_eq (catalog : Catalog) (d : Declared) :
    catalog.add d =
      { catalog with
        classes := Keyed.putAll catalog.classes (d.record? catalog.visibility).toList
        locations := Keyed.putAll catalog.locations (d.records catalog.visibility) } := by
  rw [Declared.record?, Declared.records]
  obtain ⟨unreadable, same⟩ | ⟨head, readable, added⟩ := catalog.add_cases d
  · rw [same, unreadable]
    rfl
  · rw [added, readable, Option.toList_some, List.flatMap_singleton]
    rfl

/-- What is added one after another is stored in that order. -/
theorem foldl_add (catalog : Catalog) (ds : List Declared) :
    ds.foldl add catalog =
      { catalog with
        classes := Keyed.putAll catalog.classes (ds.filterMap (·.record? catalog.visibility))
        locations :=
          Keyed.putAll catalog.locations (ds.flatMap (·.records catalog.visibility)) } := by
  induction ds generalizing catalog with
  | nil => rfl
  | cons d ds ih =>
      rw [List.foldl_cons, ih, add_eq]
      simp only [Keyed.putAll, List.flatMap_cons, List.foldl_append, List.filterMap_cons]
      cases d.record? catalog.visibility <;> rfl

/-! ## Cutting a source -/

namespace IndexedSource

/-- What is read of top-level nodes where a namespace stands. -/
def declaredFrom (s : IndexedSource) (current : Option String) (nodes : List Node) :
    List Declared :=
  (declarations s.source current nodes).map fun d => ⟨s.source, s.file, d.1, d.2⟩

theorem declared_withNodes (s : IndexedSource) (nodes : List Node) :
    (s.withNodes nodes).declared = s.declaredFrom none nodes :=
  rfl

theorem declaredFrom_append (s : IndexedSource) (before after : List Node) :
    s.declaredFrom none (before ++ after) =
      s.declaredFrom none before ++
        s.declaredFrom (standingNamespace s.source before) after := by
  have parts := declarations_append s.source [] before after
  rw [standingNamespace_nil, List.nil_append] at parts
  rw [declaredFrom, parts, List.map_append, declaredFrom, declaredFrom]

/-- After a namespace its own name stands if it has no braces, and else what stood before it. -/
theorem declaredFrom_cons (s : IndexedSource) (current : Option String) {n : Node}
    (isNamespace : n.type = "namespace_definition") (after : List Node) :
    s.declaredFrom current (n :: after) =
      s.declaredFrom none [n] ++
        s.declaredFrom (if isUnbraced n then namespaceName? s.source n else current) after := by
  rw [declaredFrom, declarations_cons, declarations_singleton_congr _ _ none isNamespace,
    List.map_append, declaredFrom, declaredFrom]

/-- What follows a namespace with braces is read as if the namespace were not there. -/
theorem exists_declared_of_braced {s : IndexedSource} {before after : List Node} {n : Node}
    (split : s.root.children = before ++ n :: after) (braced : isBraced n) :
    ∃ later, (s.withNodes (before ++ after)).declared = (s.withNodes before).declared ++ later ∧
      s.declared = (s.withNodes before).declared ++ (s.withNodes [n]).declared ++ later := by
  obtain ⟨isNamespace, hasBody⟩ := Bool.and_eq_true_iff.mp braced
  have goesOn : ¬ isUnbraced n := by
    simp [isUnbraced, Option.isSome_iff_ne_none.mp hasBody]
  refine ⟨s.declaredFrom (standingNamespace s.source before) after, ?_, ?_⟩
  · rw [declared_withNodes, declaredFrom_append, declared_withNodes]
  · calc
      s.declared = s.declaredFrom none (before ++ n :: after) := by rw [← split]; rfl
      _ = s.declaredFrom none before ++ (s.declaredFrom none [n] ++
            s.declaredFrom (standingNamespace s.source before) after) := by
          rw [declaredFrom_append, declaredFrom_cons s _ (beq_iff_eq.mp isNamespace),
            if_neg goesOn]
      _ = _ := (List.append_assoc _ _ _).symm

/-- What follows a namespace without braces is read as if nothing stood before the namespace. -/
theorem declared_of_unbraced {s : IndexedSource} {before after : List Node} {n : Node}
    (split : s.root.children = before ++ n :: after) (unbraced : isUnbraced n) :
    s.declared = (s.withNodes before).declared ++ (s.withNodes (n :: after)).declared := by
  have isNamespace := beq_iff_eq.mp (Bool.and_eq_true_iff.mp unbraced).1
  calc
    s.declared = s.declaredFrom none (before ++ n :: after) := by rw [← split]; rfl
    _ = s.declaredFrom none before ++ s.declaredFrom none (n :: after) := by
        rw [declaredFrom_append, declaredFrom_cons s _ isNamespace after,
          declaredFrom_cons s none isNamespace after, if_pos unbraced, if_pos unbraced]

end IndexedSource

/-- A source that is cut in front of a namespace without braces is indexed in two parts. -/
theorem addTree_of_unbraced (catalog : Catalog) {s : IndexedSource} {before after : List Node}
    {n : Node} (split : s.root.children = before ++ n :: after) (unbraced : isUnbraced n) :
    (catalog.addTree s.source s.file (s.withNodes before).root).addTree s.source s.file
        (s.withNodes (n :: after)).root =
      catalog.addTree s.source s.file s.root := by
  have first := addTree_eq_foldl catalog (s.withNodes before)
  have second (catalog : Catalog) := addTree_eq_foldl catalog (s.withNodes (n :: after))
  rw [addTree_eq_foldl, IndexedSource.declared_of_unbraced split unbraced, List.foldl_append,
    ← first, ← second]
  rfl

/-- The outermost classes of a source are read, each once and in order, and stored under the
namespaces they belong to. A namespace with braces changes nothing for what follows it, and a source
may be cut in front of one without braces. -/
theorem addTree_outermost (catalog : Catalog) (s : IndexedSource)
    (inBodies : ClassesInBodies s.root.children) :
    (placed s.root).map (·.node) = nodesOf s.root.children ∧
    s.declared = s.outermost ∧
    (∀ p ∈ placed s.root, isOutermostClass p → isBraced p.top →
      ∃ body inner, p.top.child? "body" = some body ∧ p.outer = p.top :: body :: inner) ∧
    catalog.addTree s.source s.file s.root =
      { catalog with
        classes :=
          Keyed.putAll catalog.classes (s.outermost.filterMap (·.record? catalog.visibility))
        locations :=
          Keyed.putAll catalog.locations (s.outermost.flatMap (·.records catalog.visibility)) } ∧
    (∀ before n after, s.root.children = before ++ n :: after → isBraced n →
      ∃ later, (s.withNodes (before ++ after)).declared =
          (s.withNodes before).declared ++ later ∧
        s.declared = (s.withNodes before).declared ++ (s.withNodes [n]).declared ++ later) ∧
    (∀ before n after, s.root.children = before ++ n :: after → isUnbraced n →
      (catalog.addTree s.source s.file (s.withNodes before).root).addTree s.source s.file
          (s.withNodes (n :: after)).root =
        catalog.addTree s.source s.file s.root) := by
  have read : s.declared = s.outermost := by
    rw [IndexedSource.declared, ← standingNamespace_nil s.source,
      declarations_eq_map_placedAfter s.source [] inBodies, List.map_map]
    rfl
  refine ⟨map_node_placedAfter [] _, read, ?_, ?_, ?_, ?_⟩
  · intro p mem outermost braced
    obtain ⟨n, top, earlier, mem⟩ := exists_mem_placedAt mem
    have same : p.top = n := (of_mem_placedAt mem).1
    rw [same] at braced ⊢
    have inBody : ClassesInBodies [n] := List.forall_mem_singleton.mpr (inBodies n top)
    exact exists_outer_eq_body inBody mem (Bool.and_eq_true_iff.mp outermost).1 braced
  · rw [addTree_eq_foldl, read, foldl_add]
  · intro before n after split braced
    exact IndexedSource.exists_declared_of_braced split braced
  · intro before n after split unbraced
    exact addTree_of_unbraced catalog split unbraced

/-- A class below a condition in a namespace with braces, a trait in a namespace without a name, and
an interface after a namespace without braces. -/
def mixedText : String :=
  "<?php\nnamespace A \x7b\nif (1) \x7b\nclass B \x7b function f() \x7b\x7d \x7d\n\x7d\n\x7d\n" ++
    "namespace \x7b\ntrait C \x7b\x7d\n\x7d\nnamespace D;\n& interface E \x7b\x7d"

def conditionNode : Node :=
  Node.ofChildren "if_statement" none [leafNode 2 "if" 20 22, leafNode 2 "(" 23 24,
    leafNode 2 "integer" 24 25, leafNode 2 ")" 25 26,
    Node.ofChildren "compound_statement" (some "body") [leafNode 2 openBrace 27 28,
      Node.ofChildren "class_declaration" none [leafNode 3 "class" 29 34, nameNode 3 "name" 35 36,
        Node.ofChildren "declaration_list" (some "body") [leafNode 3 openBrace 37 38,
          Node.ofChildren "method_declaration" none [leafNode 3 "function" 39 47,
            nameNode 3 "name" 48 49, leafNode 3 "(" 49 50, leafNode 3 ")" 50 51,
            Node.ofChildren "compound_statement" (some "body")
              [leafNode 3 openBrace 52 53, leafNode 3 closeBrace 53 54]],
          leafNode 3 closeBrace 55 56]],
      leafNode 4 closeBrace 57 58]]

def namelessNode : Node :=
  Node.ofChildren "namespace_definition" none [leafNode 6 "namespace" 61 70,
    Node.ofChildren "compound_statement" (some "body") [leafNode 6 openBrace 71 72,
      Node.ofChildren "trait_declaration" none [leafNode 7 "trait" 73 78, nameNode 7 "name" 79 80,
        Node.ofChildren "declaration_list" (some "body")
          [leafNode 7 openBrace 81 82, leafNode 7 closeBrace 82 83]],
      leafNode 8 closeBrace 84 85]]

def unbracedNode : Node :=
  Node.ofChildren "namespace_definition" none
    [leafNode 9 "namespace" 86 95, nameNode 9 "namespace_name" 96 97, leafNode 9 ";" 97 98]

def strayNode : Node :=
  Node.ofChildren "ERROR" none [leafNode 10 "&" 99 100,
    Node.ofChildren "interface_declaration" none [leafNode 10 "interface" 101 110,
      nameNode 10 "name" 111 112, Node.ofChildren "declaration_list" (some "body")
        [leafNode 10 openBrace 113 114, leafNode 10 closeBrace 114 115]]]

def mixedSource : IndexedSource where
  source := Source.ofText mixedText
  file := "a.php"
  root := Node.ofChildren "program" none [leafNode 0 "php_tag" 0 5,
    Node.ofChildren "namespace_definition" none [leafNode 1 "namespace" 6 15,
      nameNode 1 "namespace_name" 16 17, Node.ofChildren "compound_statement" (some "body")
        [leafNode 1 openBrace 18 19, conditionNode, leafNode 5 closeBrace 59 60]],
    namelessNode, unbracedNode, strayNode]

theorem addTree_outermost_mixedSource :
    ClassesInBodies mixedSource.root.children ∧
      (((empty "public").addTree mixedSource.source "a.php" mixedSource.root).classes.map (·.1) =
        ["A\\B", "C", "D\\E"]) := by
  have inBodies : ClassesInBodies mixedSource.root.children :=
    List.forall_mem_cons.mpr ⟨fun _ => rfl, List.forall_mem_cons.mpr ⟨fun _ => rfl,
      List.forall_mem_cons.mpr ⟨fun _ => rfl, List.forall_mem_cons.mpr ⟨fun _ => rfl,
        List.forall_mem_singleton.mpr fun type => absurd type (by decide)⟩⟩⟩⟩
  refine ⟨inBodies, ?_⟩
  obtain ⟨_, _, _, stored, _, _⟩ := addTree_outermost (empty "public") mixedSource inBodies
  rw [show mixedSource.file = "a.php" from rfl] at stored
  rw [stored]
  decide +kernel

end RenderTrace.Catalog
