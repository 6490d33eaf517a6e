import RenderTrace.Readers.Php.TypeWord

/-!
# The outline of a PHP source

A syntax tree of a source that groups what declares classes: namespaces, classes,
interfaces and traits with their bodies, and methods. All else are leaves side by
side, which is enough to find every class and method and to read off the tokens.

The library takes syntax trees, or a parser that gives them, from outside. This one
is for running it where no grammar of the language is at hand: it stands in for a
real parser, and no theorem rests on it.
-/

namespace RenderTrace.Php
open SourceTree

namespace Lexeme

/-- The lexeme as a leaf of the tree. -/
def leaf (field : Option String) (l : Lexeme) : Node :=
  ⟨l.type, l.start, l.stop, l.row, l.endRow, false, field, []⟩

/-- Lexemes as leaves. -/
def leaves (ls : List Lexeme) : List Node :=
  ls.map (leaf none)

/-- An opening bracket of any kind. -/
def isOpener (l : Lexeme) : Bool :=
  l.isMark "(" || l.isMark "[" || l.isMark "#[" || l.isMark "\x7b"

/-- A closing bracket of any kind. -/
def isCloser (l : Lexeme) : Bool :=
  l.isMark ")" || l.isMark "]" || l.isMark "\x7d"

/-- A lexeme that carries meaning. -/
def isSignificant (l : Lexeme) : Bool :=
  !l.isComment

end Lexeme

/-- The lexemes up to the brace that closes the block open at the given depth, that brace
included, and the lexemes after it. -/
def splitBlock (depth : Nat) : List Lexeme → List Lexeme × List Lexeme
  | [] => ([], [])
  | l :: rest =>
    if l.isMark "\x7b" then
      let (block, after) := splitBlock (depth + 1) rest
      (l :: block, after)
    else if l.isMark "\x7d" then
      if depth = 0 then ([l], rest)
      else
        let (block, after) := splitBlock (depth - 1) rest
        (l :: block, after)
    else
      let (block, after) := splitBlock depth rest
      (l :: block, after)

theorem length_splitBlock_le (depth : Nat) (ls : List Lexeme) :
    (splitBlock depth ls).2.length ≤ ls.length := by
  induction ls generalizing depth with
  | nil => simp [splitBlock]
  | cons l rest ih =>
    have up := ih (depth + 1)
    have down := ih (depth - 1)
    have same := ih depth
    unfold splitBlock
    split
    · simp only [List.length_cons]; omega
    · split
      · split
        · simp
        · simp only [List.length_cons]; omega
      · simp only [List.length_cons]; omega

/-- The number of brackets open in attributes after a lexeme. -/
def attributeDepth (depth : Nat) (l : Lexeme) : Nat :=
  if depth = 0 then if l.isMark "#[" then 1 else 0
  else if l.isMark "[" || l.isMark "#[" then depth + 1
  else if l.isMark "]" then depth - 1
  else depth

/-- The number of attributes, modifiers among the given words and comments at the front; `depth`
counts the brackets open in an attribute. -/
def preludeLength (modifiers : List String) (depth : Nat) : List Lexeme → Nat
  | [] => 0
  | l :: rest =>
    if depth = 0 && !(l.isMark "#[" || l.isComment || l.isAnyWord modifiers) then 0
    else preludeLength modifiers (attributeDepth depth l) rest + 1

/-- Gives the first name its role. -/
def leavesWithName (ls : List Lexeme) : List Node :=
  match ls with
  | [] => []
  | l :: rest =>
    if l.type == "name" then l.leaf (some "name") :: Lexeme.leaves rest
    else l.leaf none :: leavesWithName rest

/-- The number of brackets open after a lexeme. -/
def bracketDepth (depth : Nat) (l : Lexeme) : Nat :=
  if l.isOpener then depth + 1 else if l.isCloser then depth - 1 else depth

/-- The rest of a method from its parameter list on, and the lexemes after the method; `depth`
counts the brackets that are open. -/
def splitMethodRest (depth : Nat) : List Lexeme → List Lexeme × List Lexeme
  | [] => ([], [])
  | l :: rest =>
    if depth = 0 ∧ l.isMark ";" then ([l], rest)
    else if depth = 0 ∧ l.isMark "\x7b" then
      let (block, after) := splitBlock 0 rest
      (l :: block, after)
    else
      let (front, after) := splitMethodRest (bracketDepth depth l) rest
      (l :: front, after)

theorem length_splitMethodRest_le (depth : Nat) (ls : List Lexeme) :
    (splitMethodRest depth ls).2.length ≤ ls.length := by
  induction ls generalizing depth with
  | nil => simp [splitMethodRest]
  | cons l rest ih =>
    have block := length_splitBlock_le 0 rest
    have later := ih (bracketDepth depth l)
    unfold splitMethodRest
    split
    · simp
    · split
      · simp only [List.length_cons]; omega
      · simp only [List.length_cons]; omega

/-- Modifiers of methods. -/
def methodModifiers : List String :=
  ["public", "protected", "private", "static", "abstract", "final", "readonly"]

/-- Modifiers of classes. -/
def classModifiers : List String :=
  ["abstract", "final", "readonly"]

/-- The method at the front, attributes and modifiers included, and the lexemes after it. -/
def splitMethod? (ls : List Lexeme) : Option (Node × List Lexeme) :=
  let front := preludeLength methodModifiers 0 ls
  match ls.drop front with
  | keyword :: more =>
    if keyword.isWord "function" then
      let (body, after) := splitMethodRest 0 more
      some (Node.ofChildren "method_declaration" none
        (Lexeme.leaves (ls.take front ++ [keyword]) ++ leavesWithName body), after)
    else none
  | [] => none

theorem length_lt_of_splitMethod? {ls after : List Lexeme} {method : Node}
    (h : splitMethod? ls = some (method, after)) : after.length < ls.length := by
  simp only [splitMethod?] at h
  split at h
  next keyword more hd =>
    split at h
    · simp only [Option.some.injEq, Prod.mk.injEq] at h
      have rest := length_splitMethodRest_le 0 more
      have front := congrArg List.length hd
      simp only [List.length_drop, List.length_cons] at front
      rw [h.2] at rest; omega
    · simp at h
  next => simp at h

/-- The last lexeme that is no comment, after one more. -/
def latest (previous : Option Lexeme) (l : Lexeme) : Option Lexeme :=
  if l.isComment then previous else some l

/-- The members of a class from the lexemes of its body; `previous` is the last lexeme before them
that is no comment. Blocks outside methods hold no members. -/
def members (previous : Option Lexeme) : List Lexeme → List Node
  | [] => []
  | l :: rest =>
    if l.isComment || forcesName previous then l.leaf none :: members (latest previous l) rest
    else match _h : splitMethod? (l :: rest) with
    | some (method, after) => method :: members none after
    | none =>
      if l.isMark "\x7b" then
        Lexeme.leaves (l :: (splitBlock 0 rest).1) ++ members none (splitBlock 0 rest).2
      else l.leaf none :: members (some l) rest
termination_by ls => ls.length
decreasing_by
  · simp
  · exact length_lt_of_splitMethod? _h
  · have := length_splitBlock_le 0 rest
    simp only [List.length_cons]; omega
  · simp

/-- The node type of the declaration a keyword introduces. -/
def declarationType? (keyword : Lexeme) : Option String :=
  if keyword.isWord "class" then some "class_declaration"
  else if keyword.isWord "interface" then some "interface_declaration"
  else if keyword.isWord "trait" then some "trait_declaration"
  else none

/-- After this lexeme no declaration starts. -/
def hindersDeclaration (previous : Option Lexeme) : Bool :=
  forcesName previous || previous.any (·.isWord "new")

/-- The class, interface or trait at the front, attributes and modifiers included, and the lexemes
after it. -/
def splitClass? (ls : List Lexeme) : Option (Node × List Lexeme) :=
  let front := preludeLength classModifiers 0 ls
  match ls.drop front with
  | keyword :: more =>
    match declarationType? keyword, more.find? Lexeme.isSignificant,
      more.dropWhile fun l => !l.isMark "\x7b" with
    | some type, some name, brace :: inside =>
      if name.type == "name" && !name.isAnyWord ["extends", "implements"] then
        let head := more.takeWhile fun l => !l.isMark "\x7b"
        let (block, after) := splitBlock 0 inside
        some (Node.ofChildren type none
          (Lexeme.leaves (ls.take front ++ [keyword]) ++ leavesWithName head ++
            [Node.ofChildren "declaration_list" (some "body") (brace.leaf none :: members none block)]), after)
      else none
    | _, _, _ => none
  | [] => none

theorem length_lt_of_splitClass? {ls after : List Lexeme} {declaration : Node}
    (h : splitClass? ls = some (declaration, after)) : after.length < ls.length := by
  simp only [splitClass?] at h
  split at h
  next keyword more hd =>
    split at h
    next type name brace inside _ _ hw =>
      split at h
      · simp only [Option.some.injEq, Prod.mk.injEq] at h
        have block := length_splitBlock_le 0 inside
        have front := congrArg List.length hd
        have head := (List.dropWhile_suffix (l := more) fun l => !l.isMark "\x7b").length_le
        simp only [hw, List.length_drop, List.length_cons] at front head
        rw [h.2] at block; omega
      · simp at h
    next => simp at h
  next => simp at h

/-- Groups the classes among lexemes. -/
def classes (previous : Option Lexeme) : List Lexeme → List Node
  | [] => []
  | l :: rest =>
    if l.isComment || hindersDeclaration previous then
      l.leaf none :: classes (latest previous l) rest
    else match _h : splitClass? (l :: rest) with
    | some (declaration, after) => declaration :: classes none after
    | none => l.leaf none :: classes (some l) rest
termination_by ls => ls.length
decreasing_by
  · simp
  · exact length_lt_of_splitClass? _h
  · simp

/-- A part of the name of a namespace. -/
def isNamePart (l : Lexeme) : Bool :=
  l.type == "name" || l.isMark "\\"

/-- The head of a namespace, its name grouped. -/
def namespaceHead (keyword : Lexeme) (head : List Lexeme) : List Node :=
  let before := head.takeWhile fun l => !isNamePart l
  let named := head.dropWhile fun l => !isNamePart l
  let parts := named.takeWhile isNamePart
  let name :=
    if parts.isEmpty then [] else [Node.ofChildren "namespace_name" (some "name") (Lexeme.leaves parts)]
  keyword.leaf none :: Lexeme.leaves before ++ name ++ Lexeme.leaves (named.dropWhile isNamePart)

/-- The namespace whose keyword comes before `ls`, and the lexemes after it. -/
def splitNamespace? (keyword : Lexeme) (ls : List Lexeme) : Option (Node × List Lexeme) :=
  let goesOn (l : Lexeme) : Bool := !l.isMark ";" && !l.isMark "\x7b"
  let head := ls.takeWhile goesOn
  if (head.find? isNamePart).any (·.isMark "\\") then none
  else match ls.dropWhile goesOn with
  | [] => none
  | l :: more =>
    let front := namespaceHead keyword head
    if l.isMark ";" then some (Node.ofChildren "namespace_definition" none (front ++ [l.leaf none]), more)
    else
      let (block, after) := splitBlock 0 more
      some (Node.ofChildren "namespace_definition" none
        (front ++ [Node.ofChildren "compound_statement" (some "body")
          (l.leaf none :: classes none block)]), after)

theorem length_le_of_splitNamespace? {keyword : Lexeme} {ls after : List Lexeme}
    {declaration : Node} (h : splitNamespace? keyword ls = some (declaration, after)) :
    after.length ≤ ls.length := by
  simp only [splitNamespace?] at h
  split at h
  · simp at h
  · split at h
    next => simp at h
    next l more hw =>
      have head := (List.dropWhile_suffix (l := ls)
        fun l => !l.isMark ";" && !l.isMark "\x7b").length_le
      simp only [hw, List.length_cons] at head
      split at h
      · simp only [Option.some.injEq, Prod.mk.injEq] at h
        rw [← h.2]; omega
      · simp only [Option.some.injEq, Prod.mk.injEq] at h
        have block := length_splitBlock_le 0 more
        rw [h.2] at block; omega

/-- The declaration at the front, and the lexemes after it. -/
def splitDeclaration? (l : Lexeme) (rest : List Lexeme) : Option (Node × List Lexeme) :=
  if l.isWord "namespace" then splitNamespace? l rest else splitClass? (l :: rest)

theorem length_le_of_splitDeclaration? {l : Lexeme} {rest after : List Lexeme}
    {declaration : Node} (h : splitDeclaration? l rest = some (declaration, after)) :
    after.length ≤ rest.length := by
  unfold splitDeclaration? at h
  split at h
  · exact length_le_of_splitNamespace? h
  · exact Nat.le_of_lt_succ (length_lt_of_splitClass? h)

/-- Groups the namespaces and classes among lexemes. -/
def declarations (previous : Option Lexeme) : List Lexeme → List Node
  | [] => []
  | l :: rest =>
    if l.isComment || hindersDeclaration previous then
      l.leaf none :: declarations (latest previous l) rest
    else match _h : splitDeclaration? l rest with
    | some (declaration, after) => declaration :: declarations none after
    | none => l.leaf none :: declarations (some l) rest
termination_by ls => ls.length
decreasing_by
  · simp
  · exact Nat.lt_succ_of_le (length_le_of_splitDeclaration? _h)
  · simp

/-- The tree of a source. -/
def outline (source : String) : Node :=
  Node.ofChildren "program" none (declarations none (typedLexemes source))

/-- The tokens of a source. -/
def tokens (source : String) : List Token :=
  SourceTree.tokens (SourceTree.Source.ofText source) (outline source)

end RenderTrace.Php
