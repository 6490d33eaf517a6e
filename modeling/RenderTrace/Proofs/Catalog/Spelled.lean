import RenderTrace.Proofs.Catalog.ClassNodes
import RenderTrace.Proofs.Catalog.Written
import RenderTrace.Proofs.ClassShape.Spelled

/-!
# Trees with one class

A class node is read twice: its tokens give the methods of the class, and the method
nodes of its body give their locations. Where the leaves of the node spell a class by
its marks, both find the same methods, in the same order.
-/

namespace RenderTrace
open SourceTree Token ClassShape

namespace Catalog

/-! ## Classes by their marks -/

/-- A node of the body of a class: a method node whose tokens spell a method that is named as the
node is, or another node whose tokens declare no method. -/
inductive SpelledMember (source : Source) where
  | method (node nameNode : Node) (m : SpelledMethod) (isMethod : node.type = "method_declaration")
    (named : node.child? "name" = some nameNode) (isName : IsLeafOf source nameNode m.name)
    (spells : meant source [node] = m.tokens)
  | other (node : Node) (isOther : node.type ≠ "method_declaration")
    (aside : isAside (meant source [node]))

namespace SpelledMember

variable {source : Source}

def node : SpelledMember source → Node
  | .method node _ _ _ _ _ _ => node
  | .other node _ _ => node

theorem methodName?_method {node nameNode : Node} {m : SpelledMethod}
    (isMethod : node.type = "method_declaration") (named : node.child? "name" = some nameNode)
    (isName : IsLeafOf source nameNode m.name) :
    methodName? source node = some m.name.text := by
  rw [methodName?, if_pos (by simpa using isMethod), named, Option.map_some, isName.text]

theorem methodName?_other {node : Node} (isOther : node.type ≠ "method_declaration") :
    methodName? source node = none := by
  rw [methodName?, if_neg (by simpa using isOther)]

/-- A member is read as the method its node is named for, or as none. -/
theorem exists_methodsFrom {visibility : String} {seen : List Token} (rest : List Token)
    (member : SpelledMember source) :
    ∃ found passed, methodsFrom visibility seen (meant source [member.node] ++ rest) =
      found ++ methodsFrom visibility passed rest ∧
        found.map (·.name) = (methodName? source member.node).toList := by
  cases member with
  | method node nameNode m isMethod named isName spells =>
      have areMeant : ∀ t ∈ m.tokens, t.IsMeant := by
        rw [← spells]
        exact fun t => isMeant_of_mem_meant
      obtain ⟨found, passed, read, name⟩ := m.exists_methodsFrom_tokens rest areMeant
      refine ⟨[found], passed, ?_, ?_⟩
      · rw [SpelledMember.node, spells, read, List.singleton_append]
      · rw [SpelledMember.node, methodName?_method isMethod named isName, Option.toList_some,
          List.map_singleton, name]
  | other node isOther aside =>
      refine ⟨[], _, methodsFrom_aside rest aside, ?_⟩
      rw [SpelledMember.node, methodName?_other isOther]
      rfl

end SpelledMember

variable {source : Source}

/-- The members of a body are read one after another, up to its closing brace. -/
theorem map_name_methodsFrom_members {visibility : String} {seen : List Token}
    (members : List (SpelledMember source)) {closing : Token} (closes : closing.text = closeBrace)
    (rest : List Token) :
    (methodsFrom visibility seen
      (meant source (members.map (·.node)) ++ closing :: rest)).map (·.name) =
        (members.map (·.node)).filterMap (methodName? source) := by
  induction members generalizing seen with
  | nil =>
      have nothing : meant source [] = [] := by rw [meant, tokensFrom, List.filter_nil]
      rw [List.map_nil, nothing, List.nil_append, methodsFrom, if_pos closes]
      rfl
  | cons member members ih =>
      obtain ⟨found, passed, read, names⟩ := member.exists_methodsFrom
        (meant source (members.map (·.node)) ++ closing :: rest)
      rw [List.map_cons, meant_cons, List.append_assoc, read, List.map_append, ih, names,
        List.filterMap_cons]
      cases methodName? source member.node with
      | none => rfl
      | some name => rfl

/-- A class by its marks: modifiers, the keyword of its form, its name, a header without an opening
brace, and a body of members between braces. -/
structure SpelledClass (source : Source) where
  node : Node
  modifiers : List Token
  form : ClassForm
  keyword : Token
  name : Token
  header : List Token
  body : Node
  openNode : Node
  opening : Token
  members : List (SpelledMember source)
  closeNode : Node
  closing : Token
  modifiers_areModifiers : ∀ t ∈ modifiers, t.isModifier
  keyword_isForm : keyword.kind = .form form
  name_isName : name.kind = .name
  header_isOpen : ∀ t ∈ header, !t.opensBrace
  node_spells : meant source [node] = modifiers ++ keyword :: name :: header ++ meant source [body]
  child_body : node.child? "body" = some body
  body_isInner : body.isMissing = false ∧ body.isLeaf = false
  body_children : body.children = openNode :: members.map (·.node) ++ [closeNode]
  opening_isLeaf : IsLeafOf source openNode opening
  opening_isMark : opening.text = openBrace
  closing_isLeaf : IsLeafOf source closeNode closing
  closing_isMark : closing.text = closeBrace

theorem child?_of_isLeaf {n : Node} {role : String} (leaf : n.isLeaf)
    (isMethod : n.type = "method_declaration") : n.child? role = none := by
  have empty : n.children = [] := by simpa [Node.isLeaf, isMethod, Node.atomicTypes] using leaf
  rw [Node.child?, empty, List.find?_nil]

theorem methodName?_of_isLeaf {n : Node} (leaf : n.isLeaf) : methodName? source n = none := by
  rw [methodName?]
  split
  next isMethod => rw [child?_of_isLeaf leaf (by simpa using isMethod), Option.map_none]
  · rfl

/-- A location is that of a method node with its name. -/
theorem location?_eq_some_iff {file className : String} {member : Node} {l : MethodLocation} :
    location? source file className member = some l ↔
      ∃ name, methodName? source member = some name ∧
        l = ⟨className, name, file, member.row + 1, member.endRow + 1⟩ := by
  rw [location?, methodName?]
  split
  · simp only [Option.map_eq_some_iff]
    constructor
    · rintro ⟨nameNode, named, rfl⟩
      exact ⟨_, ⟨nameNode, named, rfl⟩, rfl⟩
    · rintro ⟨_, ⟨nameNode, named, rfl⟩, rfl⟩
      exact ⟨nameNode, named, rfl⟩
  · simp

namespace SpelledClass

variable (c : SpelledClass source)

/-- The class without its members. -/
def withoutMembers : WrittenClass where
  modifiers := c.modifiers
  form := c.form
  keyword := c.keyword
  name := c.name
  header := c.header
  openLine := c.opening.line
  members := []
  closeLine := c.closing.line
  modifiers_areModifiers := c.modifiers_areModifiers
  keyword_isForm := c.keyword_isForm
  name_isName := c.name_isName
  header_isOpen := c.header_isOpen

theorem meant_body :
    meant source [c.body] = c.opening :: (meant source (c.members.map (·.node)) ++ [c.closing]) := by
  obtain ⟨present, inner⟩ := c.body_isInner
  rw [meant_inner present inner, c.body_children, meant_append, meant_cons,
    c.opening_isLeaf.meant, c.closing_isLeaf.meant]
  rfl

theorem filterMap_methodName?_body :
    c.body.children.filterMap (methodName? source) =
      (c.members.map (·.node)).filterMap (methodName? source) := by
  rw [c.body_children, List.filterMap_append, List.filterMap_cons,
    methodName?_of_isLeaf c.opening_isLeaf.leaf, List.filterMap_cons,
    methodName?_of_isLeaf c.closing_isLeaf.leaf, List.filterMap_nil, List.append_nil]

/-- The class is read under its name, with a method for each method node of its body. -/
theorem exists_read (visibility : String) :
    ∃ head methods, ClassShape.read visibility (tokens source c.node) = ⟨some head, methods⟩ ∧
      head.name = c.name.text ∧
      methods.map (·.name) = c.body.children.filterMap (methodName? source) := by
  have written : (tokens source c.node).filter (!·.isTrivia) = [] ++ (c.modifiers ++ c.keyword ::
      c.name :: c.header ++ c.opening ::
        (meant source (c.members.map (·.node)) ++ c.closing :: [])) := by
    have spells := c.node_spells
    rw [c.meant_body] at spells
    exact spells
  obtain ⟨offset, read⟩ :=
    c.withoutMembers.exists_read_opened visibility rfl c.opening_isMark written
  refine ⟨_, _, read, rfl, ?_⟩
  rw [map_name_methodsFrom_members c.members c.closing_isMark, filterMap_methodName?_body]

/-- What indexing a class under a full name records of a member. -/
def recordOf (source : Source) (file className : String) (member : Node) :
    Option ((String × String) × MethodLocation) :=
  (location? source file className member).map fun l => (locationKey l, l)

theorem recordOf_eq_some_iff {file className : String} {member : Node} {key : String × String}
    {l : MethodLocation} :
    recordOf source file className member = some (key, l) ↔
      ∃ name, methodName? source member = some name ∧
        key = (Text.lower className, Text.lower name) ∧
        l = ⟨className, name, file, member.row + 1, member.endRow + 1⟩ := by
  rw [recordOf, Option.map_eq_some_iff]
  constructor
  · rintro ⟨_, located, equal⟩
    obtain ⟨name, named, rfl⟩ := location?_eq_some_iff.mp located
    obtain ⟨rfl, rfl⟩ := Prod.mk.inj equal
    exact ⟨name, named, rfl, rfl⟩
  · rintro ⟨name, named, rfl, rfl⟩
    exact ⟨_, location?_eq_some_iff.mpr ⟨name, named, rfl⟩, rfl⟩

theorem forall_recordOf_ne_iff {file className name : String} {member : Node} :
    (∀ p ∈ recordOf source file className member,
      p.1 ≠ (Text.lower className, Text.lower name)) ↔
      ∀ other ∈ methodName? source member, Text.lower other ≠ Text.lower name := by
  constructor
  · intro keys other named same
    exact keys _ (recordOf_eq_some_iff.mpr ⟨other, named, rfl, rfl⟩) (by rw [same])
  · rintro names ⟨key, l⟩ recorded same
    obtain ⟨other, named, rfl, _⟩ := recordOf_eq_some_iff.mp recorded
    exact names other named (Prod.mk.inj same).2

/-- Indexing the class puts its shape and the records of its members into the catalog. -/
theorem addClass_empty {visibility : String} {head : ClassHead} {methods : List Method}
    (file : String) (ns : Option String)
    (read : ClassShape.read visibility (tokens source c.node) = ⟨some head, methods⟩) :
    addClass source file (empty visibility) (ns, c.node) =
      { visibility := visibility
        classes := [(fullName ns head.name, ⟨some head, methods⟩)]
        locations := Keyed.ofList
          (c.body.children.filterMap (recordOf source file (fullName ns head.name))) } := by
  have found : (locationsOf source file (fullName ns head.name) c.node).map
      (fun l => (locationKey l, l)) =
        c.body.children.filterMap (recordOf source file (fullName ns head.name)) := by
    rw [locationsOf, c.child_body]
    exact List.map_filterMap
  rw [addClass]
  simp only [empty, read, found]
  rfl

end SpelledClass

/-- The tree walk and the token reader agree on a class that stands in no namespace or in the body of
one. A class that stands elsewhere in a namespace is not indexed at all. -/
theorem ofSources_spelled (visibility : String) (s : IndexedSource) (c : SpelledClass s.source)
    (single : classNodesOf s.root.children = [c.node]) :
    (ClassesInBodies s.root.children →
      ∃ ns className shape, declarations s.source none s.root.children = [(ns, c.node)] ∧
        className = fullName ns c.name.text ∧
        (ofSources visibility [s]).classes = [(className, shape)] ∧
        shape.methods.map (·.name) = c.body.children.filterMap (methodName? s.source) ∧
        ((ofSources visibility [s]).locations.map (·.1)).Nodup ∧
        ∀ key l, (key, l) ∈ (ofSources visibility [s]).locations ↔
          ∃ before member after name, c.body.children = before ++ member :: after ∧
            methodName? s.source member = some name ∧
            (∀ later ∈ after, ∀ other ∈ methodName? s.source later,
              Text.lower other ≠ Text.lower name) ∧
            key = (Text.lower className, Text.lower name) ∧
            l = ⟨className, name, s.file, member.row + 1, member.endRow + 1⟩) ∧
    (¬ ClassesInBodies s.root.children →
      (ofSources visibility [s]).classes = [] ∧ (ofSources visibility [s]).locations = []) := by
  have added : ofSources visibility [s] =
      (declarations s.source none s.root.children).foldl (addClass s.source s.file)
        (empty visibility) := rfl
  constructor
  · intro inBodies
    obtain ⟨ns, declared⟩ := exists_declarations_eq s.source inBodies single
    obtain ⟨head, methods, read, named, names⟩ := c.exists_read visibility
    have indexed : ofSources visibility [s] =
        addClass s.source s.file (empty visibility) (ns, c.node) := by
      rw [added, declared, List.foldl_cons, List.foldl_nil]
    rw [c.addClass_empty s.file ns read, named] at indexed
    refine ⟨ns, _, ⟨some head, methods⟩, declared, rfl, ?_, names,
      (WellKeyed.ofSources visibility [s]).nodup, ?_⟩
    · rw [indexed]
    · intro key l
      rw [indexed]
      rw [Keyed.mem_ofList_filterMap_iff]
      constructor
      · rintro ⟨before, member, after, split, recorded, last⟩
        obtain ⟨name, named, rfl, rfl⟩ := SpelledClass.recordOf_eq_some_iff.mp recorded
        exact ⟨before, member, after, name, split, named, fun later mem =>
          SpelledClass.forall_recordOf_ne_iff.mp (last later mem), rfl, rfl⟩
      · rintro ⟨before, member, after, name, split, named, last, rfl, rfl⟩
        exact ⟨before, member, after, split,
          SpelledClass.recordOf_eq_some_iff.mpr ⟨name, named, rfl, rfl⟩,
          fun later mem => SpelledClass.forall_recordOf_ne_iff.mpr (last later mem)⟩
  · intro outside
    rw [added, declarations_eq_nil outside single, List.foldl_nil]
    exact ⟨rfl, rfl⟩

/-- A class with a trait and two methods whose names differ in letter case. -/
def repeatedText : String :=
  "<?php\nnamespace App \x7b\nfinal class A \x7b\nuse T \x7b f as g; \x7d\n" ++
    "function f($a) \x7b \x7d\n// again\npublic function &F();\n\x7d\n\x7d"

def useNode : Node :=
  Node.ofChildren "use_declaration" none [leafNode 3 "use" 38 41, leafNode 3 "name" 42 43,
    leafNode 3 openBrace 44 45, leafNode 3 "name" 46 47, leafNode 3 "as" 48 50,
    leafNode 3 "name" 51 52, leafNode 3 ";" 52 53, leafNode 3 closeBrace 54 55]

def firstName : Node :=
  nameNode 4 "name" 65 66

def firstNode : Node :=
  Node.ofChildren "method_declaration" none [leafNode 4 "function" 56 64, firstName,
    leafNode 4 "(" 66 67, leafNode 4 "variable_name" 67 69, leafNode 4 ")" 69 70,
    Node.ofChildren "compound_statement" (some "body")
      [leafNode 4 openBrace 71 72, leafNode 4 closeBrace 73 74]]

def secondName : Node :=
  nameNode 6 "name" 101 102

def secondNode : Node :=
  Node.ofChildren "method_declaration" none [leafNode 6 "public" 84 90, leafNode 6 "function" 91 99,
    leafNode 6 "&" 100 101, secondName, leafNode 6 "(" 102 103, leafNode 6 ")" 103 104,
    leafNode 6 ";" 104 105]

def repeatedBody : Node :=
  Node.ofChildren "declaration_list" (some "body") [leafNode 2 openBrace 36 37, useNode, firstNode,
    leafNode 5 "comment" 75 83, secondNode, leafNode 7 closeBrace 106 107]

def repeatedNode : Node :=
  Node.ofChildren "class_declaration" none [leafNode 2 "final" 22 27, leafNode 2 "class" 28 33,
    nameNode 2 "name" 34 35, repeatedBody]

def repeatedSource : IndexedSource where
  source := Source.ofText repeatedText
  file := "a.php"
  root := Node.ofChildren "program" none [leafNode 0 "php_tag" 0 5,
    Node.ofChildren "namespace_definition" none [leafNode 1 "namespace" 6 15,
      nameNode 1 "namespace_name" 16 19,
      Node.ofChildren "compound_statement" (some "body")
        [leafNode 1 openBrace 20 21, repeatedNode, leafNode 8 closeBrace 108 109]]]

def firstMethod : SpelledMethod where
  modifiers := []
  keyword := ⟨.function, "function", 5⟩
  reference := none
  name := ⟨.name, "f", 5⟩
  opening := mark "(" 5
  listed := [⟨.var, "$a", 5⟩]
  closing := mark ")" 5
  returnType := none
  body := .block (mark openBrace 5) [] (mark closeBrace 5) rfl bracesBalanced_nil rfl
  modifiers_areModifiers := areModifiers_nil
  keyword_isFunction := rfl
  reference_isMark := nofun
  name_isWord := .inl rfl
  opening_isMark := rfl
  listed_isNested := by decide
  listed_hasNoFunction := by decide
  closing_isMark := rfl
  returnType_isType := nofun

def secondMethod : SpelledMethod where
  modifiers := [⟨.modifier (.visibility .publicAccess), "public", 7⟩]
  keyword := ⟨.function, "function", 7⟩
  reference := some (mark "&" 7)
  name := ⟨.name, "F", 7⟩
  opening := mark "(" 7
  listed := []
  closing := mark ")" 7
  returnType := none
  body := .semicolon (mark ";" 7) rfl
  modifiers_areModifiers := by decide
  keyword_isFunction := rfl
  reference_isMark := by decide
  name_isWord := .inl rfl
  opening_isMark := rfl
  listed_isNested := rfl
  listed_hasNoFunction := by decide
  closing_isMark := rfl
  returnType_isType := nofun

def repeatedClass : SpelledClass repeatedSource.source where
  node := repeatedNode
  modifiers := [⟨.modifier .final, "final", 3⟩]
  form := .classForm
  keyword := ⟨.form .classForm, "class", 3⟩
  name := ⟨.name, "A", 3⟩
  header := []
  body := repeatedBody
  openNode := leafNode 2 openBrace 36 37
  opening := mark openBrace 3
  members := [
    .other useNode (by decide)
      (isAside_of_bracesBalanced (by decide +kernel) (by decide +kernel)),
    .method firstNode firstName firstMethod rfl rfl ⟨rfl, rfl, by decide +kernel, rfl⟩
      (by decide +kernel),
    .other (leafNode 5 "comment" 75 83) (by decide) (by decide +kernel),
    .method secondNode secondName secondMethod rfl rfl ⟨rfl, rfl, by decide +kernel, rfl⟩
      (by decide +kernel)]
  closeNode := leafNode 7 closeBrace 106 107
  closing := mark closeBrace 8
  modifiers_areModifiers := by decide
  keyword_isForm := by decide
  name_isName := rfl
  header_isOpen := noneOpensBrace_nil
  node_spells := by decide +kernel
  child_body := rfl
  body_isInner := ⟨rfl, rfl⟩
  body_children := rfl
  opening_isLeaf := ⟨rfl, rfl, by decide +kernel, rfl⟩
  opening_isMark := rfl
  closing_isLeaf := ⟨rfl, rfl, by decide +kernel, rfl⟩
  closing_isMark := rfl

theorem ofSources_spelled_repeatedSource :
    classNodesOf repeatedSource.root.children = [repeatedClass.node] ∧
      ClassesInBodies repeatedSource.root.children ∧
      ∃ className shape, (ofSources "public" [repeatedSource]).classes = [(className, shape)] ∧
        shape.methods.map (·.name) =
          repeatedBody.children.filterMap (methodName? repeatedSource.source) ∧
        (ofSources "public" [repeatedSource]).locations =
          [(("app\\a", "f"), ⟨"App\\A", "F", "a.php", 7, 7⟩)] := by
  have single : classNodesOf repeatedSource.root.children = [repeatedClass.node] := rfl
  have inBodies : ClassesInBodies repeatedSource.root.children :=
    List.forall_mem_cons.mpr ⟨fun type => absurd type (by decide),
      List.forall_mem_cons.mpr ⟨fun _ => rfl, nofun⟩⟩
  obtain ⟨_, className, shape, _, _, classes, names, _⟩ :=
    (ofSources_spelled "public" repeatedSource repeatedClass single).1 inBodies
  exact ⟨single, inBodies, className, shape, classes, names, by decide +kernel⟩

/-- A class that no semicolon parts from the namespace in front of it. -/
def unpartedText : String :=
  "<?php\nnamespace App class A \x7b function f() \x7b\x7d \x7d"

def unpartedBody : Node :=
  Node.ofChildren "declaration_list" (some "body")
    [leafNode 1 openBrace 28 29, idleNode 1 30, leafNode 1 closeBrace 46 47]

/-- The class lies below the node of a namespace that has no body. -/
def unpartedSource : IndexedSource :=
  .ofText "a.php" unpartedText (Node.ofChildren "program" none [leafNode 0 "php_tag" 0 5,
    Node.ofChildren "namespace_definition" none [leafNode 1 "namespace" 6 15,
      nameNode 1 "namespace_name" 16 19, lineClassNode 1 [] 20 1 [idleNode 1 30] 47]])

def idleMethodSpelled : SpelledMethod where
  modifiers := []
  keyword := ⟨.function, "function", 2⟩
  reference := none
  name := ⟨.name, "f", 2⟩
  opening := mark "(" 2
  listed := []
  closing := mark ")" 2
  returnType := none
  body := .block (mark openBrace 2) [] (mark closeBrace 2) rfl bracesBalanced_nil rfl
  modifiers_areModifiers := areModifiers_nil
  keyword_isFunction := rfl
  reference_isMark := nofun
  name_isWord := .inl rfl
  opening_isMark := rfl
  listed_isNested := rfl
  listed_hasNoFunction := by decide
  closing_isMark := rfl
  returnType_isType := nofun

def unpartedClass : SpelledClass unpartedSource.source where
  node := lineClassNode 1 [] 20 1 [idleNode 1 30] 47
  modifiers := []
  form := .classForm
  keyword := ⟨.form .classForm, "class", 2⟩
  name := ⟨.name, "A", 2⟩
  header := []
  body := unpartedBody
  openNode := leafNode 1 openBrace 28 29
  opening := mark openBrace 2
  members := [.method (idleNode 1 30) (nameNode 1 "name" 39 40) idleMethodSpelled rfl rfl
    ⟨rfl, rfl, by decide +kernel, rfl⟩ (by decide +kernel)]
  closeNode := leafNode 1 closeBrace 46 47
  closing := mark closeBrace 2
  modifiers_areModifiers := areModifiers_nil
  keyword_isForm := by decide
  name_isName := rfl
  header_isOpen := noneOpensBrace_nil
  node_spells := by decide +kernel
  child_body := rfl
  body_isInner := ⟨rfl, rfl⟩
  body_children := rfl
  opening_isLeaf := ⟨rfl, rfl, by decide +kernel, rfl⟩
  opening_isMark := rfl
  closing_isLeaf := ⟨rfl, rfl, by decide +kernel, rfl⟩
  closing_isMark := rfl

/-- Nothing below a namespace without a body is looked at, so its class is not indexed. -/
theorem ofSources_unpartedSource :
    classNodesOf unpartedSource.root.children = [unpartedClass.node] ∧
      unpartedClass.body.children.filterMap (methodName? unpartedSource.source) = ["f"] ∧
      (ofSources "public" [unpartedSource]).classes = [] ∧
      (ofSources "public" [unpartedSource]).locations = [] := by
  have single : classNodesOf unpartedSource.root.children = [unpartedClass.node] := rfl
  have named : unpartedClass.body.children.filterMap (methodName? unpartedSource.source) =
      ["f"] := by
    decide +kernel
  have nothing : ofSources "public" [unpartedSource] = empty "public" := rfl
  rw [nothing]
  exact ⟨single, named, rfl, rfl⟩

end Catalog

end RenderTrace
