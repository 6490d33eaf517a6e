import RenderTrace.Proofs.ClassShape.Balanced
import RenderTrace.SourceTree

/-!
# The tokens of a source tree

The stack that flattens a tree gives the leaves from left to right, so the tokens of
nodes side by side are those of each node in turn. The kind of every token follows
from its text and the type of its leaf, which keeps punctuation from being taken for
a keyword.
-/

namespace RenderTrace

namespace SourceTree
open Node

theorem leavesOf_append (a b : List Node) : leavesOf (a ++ b) = leavesOf a ++ leavesOf b := by
  induction a with
  | nil => rfl
  | cons n a ih => rw [List.cons_append, leavesOf, ih, leavesOf, List.append_assoc]

theorem leaves_eq (n : Node) :
    leaves n = if n.isMissing then [] else if n.isLeaf then [n] else leavesOf n.children := by
  obtain ⟨type, start, stop, row, endRow, isMissing, field, children⟩ := n
  rw [leaves]

theorem leaves_of_isMissing {n : Node} (missing : n.isMissing) : leaves n = [] := by
  rw [leaves_eq, if_pos missing]

theorem leaves_of_isLeaf {n : Node} (present : n.isMissing = false) (leaf : n.isLeaf) :
    leaves n = [n] := by
  rw [leaves_eq, present, if_neg Bool.false_ne_true, if_pos leaf]

theorem leaves_of_inner {n : Node} (present : n.isMissing = false) (inner : n.isLeaf = false) :
    leaves n = leavesOf n.children := by
  rw [leaves_eq, present, if_neg Bool.false_ne_true, inner, if_neg Bool.false_ne_true]

/-- The stack gives the tokens of the leaves, from left to right. -/
theorem tokensFrom_eq_filterMap_leavesOf (source : Source) (pending : List Node) :
    tokensFrom source pending = (leavesOf pending).filterMap (Node.token? source) := by
  fun_induction tokensFrom source pending with
  | case1 => rfl
  | case2 n pending missing ih =>
      rw [leavesOf, leaves_of_isMissing missing, List.nil_append, ih]
  | case3 n pending present leaf ih =>
      rw [Bool.not_eq_true] at present
      rw [leavesOf, leaves_of_isLeaf present leaf, ih, List.singleton_append,
        List.filterMap_cons]
      cases n.token? source with
      | none => rfl
      | some t => rfl
  | case4 n pending present inner ih =>
      rw [Bool.not_eq_true] at present inner
      rw [ih, leavesOf_append, leavesOf, leaves_of_inner present inner]

/-- The tokens of nodes that carry meaning, from left to right. -/
def meant (source : Source) (nodes : List Node) : List Token :=
  (tokensFrom source nodes).filter (!·.isTrivia)

section Meant

variable {source : Source}

theorem meant_append (a b : List Node) :
    meant source (a ++ b) = meant source a ++ meant source b := by
  simp only [meant, tokensFrom_eq_filterMap_leavesOf, leavesOf_append, List.filterMap_append,
    List.filter_append]

theorem meant_cons (n : Node) (rest : List Node) :
    meant source (n :: rest) = meant source [n] ++ meant source rest :=
  meant_append [n] rest

theorem meant_inner {n : Node} (present : n.isMissing = false) (inner : n.isLeaf = false) :
    meant source [n] = meant source n.children := by
  simp only [meant, tokensFrom_eq_filterMap_leavesOf, leavesOf, leaves_of_inner present inner,
    List.append_nil]

/-- The node is a leaf that stands for the token, which carries meaning. -/
structure IsLeafOf (source : Source) (n : Node) (t : Token) : Prop where
  present : n.isMissing = false
  leaf : n.isLeaf
  token : n.token? source = some t
  plain : !t.isTrivia

theorem IsLeafOf.meant {n : Node} {t : Token} (isLeaf : IsLeafOf source n t) :
    meant source [n] = [t] := by
  rw [SourceTree.meant, tokensFrom_eq_filterMap_leavesOf, leavesOf,
    leaves_of_isLeaf isLeaf.present isLeaf.leaf, leavesOf, List.append_nil,
    List.filterMap_cons, isLeaf.token, List.filterMap_nil, List.filter_cons,
    if_pos isLeaf.plain, List.filter_nil]

theorem IsLeafOf.text {n : Node} {t : Token} (isLeaf : IsLeafOf source n t) :
    n.text source = t.text := by
  have token := isLeaf.token
  rw [Node.token?] at token
  split at token
  · exact absurd token (by simp)
  · rw [← Option.some.inj token]

end Meant

end SourceTree

/-! ## Kinds -/

namespace Token

/-- The token carries meaning, and its kind follows from its text and the type of some node. -/
structure IsMeant (t : Token) : Prop where
  plain : !t.isTrivia
  classified : ∃ type, t.kind = Kind.ofText type t.text

theorem isMeant_of_mem_meant {source : SourceTree.Source} {nodes : List SourceTree.Node}
    {t : Token} (mem : t ∈ SourceTree.meant source nodes) : t.IsMeant := by
  obtain ⟨mem, plain⟩ := List.mem_filter.mp mem
  rw [SourceTree.tokensFrom_eq_filterMap_leavesOf] at mem
  obtain ⟨n, _, token⟩ := List.mem_filterMap.mp mem
  rw [SourceTree.Node.token?] at token
  split at token
  · exact absurd token (by simp)
  · obtain rfl := Option.some.inj token
    exact ⟨plain, n.type, rfl⟩

/-- The texts of the marks that part the tokens of a method. -/
def markTexts : List String :=
  ["(", ")", ":", ";", openBrace, closeBrace, "&"]

/-- A mark is no keyword and no name. -/
theorem IsMeant.isNeverName_of_mark {t : Token} (meant : t.IsMeant) (isMark : t.text ∈ markTexts) :
    t.kind.isNeverName := by
  have each : ∀ text ∈ markTexts, Kind.opensComment text.toList = false ∧
      Text.isBlankText text = false ∧ Kind.keyword? text = none ∧
      text.toList.head? ≠ some '$' ∧ text.toList.head?.any Text.isQuote = false ∧
      text.toList.head?.any Text.isDigit = false ∧ text ≠ "..." ∧ text ≠ "::" ∧
      Kind.isName (Kind.dropFinalFeed text.toList) = false := by
    decide +kernel
  obtain ⟨comment, blank, keyword, dollar, quote, digit, dots, colons, name⟩ := each t.text isMark
  obtain ⟨plain, type, kind⟩ := meant
  rw [isTrivia, kind, Kind.ofText] at plain
  rw [kind, Kind.ofText]
  simp only [comment, blank, keyword, dollar, quote, digit, dots, colons, name,
    Bool.false_eq_true, or_false, false_and, if_false] at plain ⊢
  split at plain
  · exact absurd plain (by decide)
  next other =>
    rw [if_neg other]
    split
    · rfl
    · split
      · rfl
      · rfl

/-- A keyword or a name is not spelled like a mark. -/
theorem IsMeant.not_mark {t : Token} (meant : t.IsMeant) (named : t.kind.isNeverName = false) :
    t.text ∉ markTexts := by
  intro isMark
  rw [meant.isNeverName_of_mark isMark] at named
  exact absurd named (by decide)

end Token

end RenderTrace
