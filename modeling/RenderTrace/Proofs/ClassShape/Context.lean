import RenderTrace.Proofs.ClassShape.Truncated
import RenderTrace.Proofs.SourceTree

/-!
# Classes in context

A class that is complete is read the same wherever it stands. Tokens before it that
have no part in its declaration, any tokens after it, and comments and white space
anywhere change nothing but the place of its name. So the tokens of a class node give
the shape that the tokens of the whole source give.

## Implementation notes

The search for the declaration looks at one token behind the keyword and back over the
modifiers before it. It is therefore followed once, up to the name that is found, for
any tokens that were passed before and any that come after.
-/

namespace RenderTrace
open Token

namespace SourceTree

/-- A node stands in a tree between the nodes before it and those after it, from left to right; no
node above it is missing or taken whole. -/
inductive StandsIn (n : Node) : Node → List Node → List Node → Prop
  | root : StandsIn n n [] []
  | child {parent child : Node} {left right before after : List Node}
      (present : parent.isMissing = false) (inner : parent.isLeaf = false)
      (split : parent.children = left ++ child :: right) (stands : StandsIn n child before after) :
      StandsIn n parent (left ++ before) (after ++ right)

theorem StandsIn.leaves_eq {n root : Node} {before after : List Node}
    (stands : StandsIn n root before after) :
    leaves root = leavesOf before ++ leaves n ++ leavesOf after := by
  induction stands with
  | root => simp [leavesOf]
  | child present inner split _ ih =>
      rw [leaves_of_inner present inner, split, leavesOf_append, leavesOf, ih, leavesOf_append,
        leavesOf_append]
      simp only [List.append_assoc]

/-- The tokens of a tree are those before a node, those of the node and those after it. -/
theorem StandsIn.tokens_eq {source : Source} {n root : Node} {before after : List Node}
    (stands : StandsIn n root before after) :
    tokens source root = tokensFrom source before ++ tokens source n ++ tokensFrom source after := by
  simp only [tokens, tokensFrom_eq_filterMap_leavesOf, leavesOf, List.append_nil, stands.leaves_eq,
    List.filterMap_append]

end SourceTree

namespace ClassShape

/-! ## The place of the name -/

/-- A token that carries meaning has a place among all tokens. -/
theorem exists_split_of_filter {tokens front back : List Token} {t : Token}
    (split : tokens.filter (!·.isTrivia) = front ++ t :: back) :
    ∃ before after, tokens = before ++ t :: after ∧ before.filter (!·.isTrivia) = front ∧
      after.filter (!·.isTrivia) = back ∧ !t.isTrivia := by
  obtain ⟨ahead, behind, rfl, start, named⟩ := List.filter_eq_append_iff.mp split
  obtain ⟨gap, after, rfl, trivia, plain, stop⟩ := List.filter_eq_cons_iff.mp named
  refine ⟨ahead ++ gap, after, (List.append_assoc _ _ _).symm, ?_, stop, plain⟩
  rw [List.filter_append, start, List.filter_eq_nil_iff.mpr trivia, List.append_nil]

theorem exists_split_of_significant {tokens : List Token} {front back : List Placed} {p : Placed}
    (split : significant tokens = front ++ p :: back) :
    ∃ before after, tokens = before ++ p.token :: after ∧ before.length = p.place ∧
      before.filter (!·.isTrivia) = front.map (·.token) ∧
      after.filter (!·.isTrivia) = back.map (·.token) := by
  have texts : tokens.filter (!·.isTrivia) =
      front.map (·.token) ++ p.token :: back.map (·.token) := by
    have tokens_eq : (significant tokens).map (·.token) = _ := map_token_significantFrom 0 tokens
    rw [← tokens_eq, split, List.map_append, List.map_cons]
  obtain ⟨before, after, rfl, start, stop, plain⟩ := exists_split_of_filter texts
  refine ⟨before, after, rfl, ?_, start, stop⟩
  rw [significant_append_cons _ _ plain] at split
  have length : (significantFrom 0 before).length = front.length := by
    rw [← List.length_map (·.token), map_token_significantFrom, start, List.length_map]
  obtain ⟨same, _⟩ := List.cons_eq_cons.mp (List.append_inj split length).2
  rw [← same]

theorem any_head?_append {p : Token → Bool} {seen passed : List Token}
    (none : ∀ t ∈ passed.head?, !p t) : (seen ++ passed).head?.any p = seen.head?.any p := by
  cases seen with
  | nil => simpa [Option.any_eq_false] using none
  | cons t seen => rfl

/-- A token that begins no declaration is passed. -/
theorem findHead_passed {seen : List Token} {p q : Placed} {placed : List Placed}
    (other : ∀ form, p.token.kind = .form form →
      ¬ (!seen.head?.any blocksDeclaration && q.token.kind == .name) = true) :
    findHead seen (p :: q :: placed) = findHead (p.token :: seen) (q :: placed) := by
  rw [findHead]
  split
  next form kind => rw [if_neg (other form kind)]
  · rfl

/-- The declaration is found for any places of the tokens, whatever was passed before that has no
part in it, and whatever comes behind its name. -/
def IsFoundAnywhere (seen : List Token) (placed : List Placed) (head : ClassHead)
    (rest : List Token) : Prop :=
  ∃ front name back, placed = front ++ name :: back ∧ name.place = head.offset ∧
    name.token.kind = .name ∧ rest = back.map (·.token) ∧
    ∀ passed ahead named behind, IsSettled passed →
      (∀ t ∈ passed.head?, !blocksDeclaration t) →
      ahead.map (·.token) = front.map (·.token) → named.token = name.token →
      findHead (seen ++ passed) (ahead ++ named :: behind) =
        some ({ head with offset := named.place }, behind.map (·.token))

theorem IsFoundAnywhere.passed {seen rest : List Token} {p q : Placed} {placed : List Placed}
    {head : ClassHead} (found : IsFoundAnywhere (p.token :: seen) (q :: placed) head rest)
    (other : ∀ form, p.token.kind = .form form →
      ¬ (!seen.head?.any blocksDeclaration && q.token.kind == .name) = true) :
    IsFoundAnywhere seen (p :: q :: placed) head rest := by
  obtain ⟨front, name, back, split, place, isName, rest_eq, anywhere⟩ := found
  refine ⟨p :: front, name, back, congrArg (p :: ·) split, place, isName, rest_eq, ?_⟩
  intro passed ahead named behind settled free same name_eq
  obtain ⟨p', ahead, rfl, token, same⟩ := List.map_eq_cons_iff.mp same
  have token : p'.token = p.token := token
  obtain ⟨q', later, next, token'⟩ : ∃ q' later, ahead ++ named :: behind = q' :: later ∧
      q'.token = q.token := by
    cases front with
    | nil =>
        obtain rfl := List.map_eq_nil_iff.mp same
        obtain ⟨rfl, _⟩ := List.cons_eq_cons.mp split
        exact ⟨named, behind, rfl, name_eq⟩
    | cons q'' front =>
        obtain ⟨q', ahead, rfl, token', _⟩ := List.map_eq_cons_iff.mp same
        obtain ⟨rfl, _⟩ := List.cons_eq_cons.mp split
        exact ⟨q', ahead ++ named :: behind, rfl, token'⟩
  have found := anywhere passed ahead named behind settled free same name_eq
  rw [next, List.cons_append] at found
  rw [List.cons_append, next, findHead_passed, token]
  · exact found
  · intro form kind
    rw [any_head?_append free, token']
    apply other form
    rw [← token]
    exact kind

/-- Where a declaration is found, it is found anywhere. -/
theorem isFoundAnywhere_of_findHead {seen rest : List Token} {placed : List Placed}
    {head : ClassHead} (found : findHead seen placed = some (head, rest)) :
    IsFoundAnywhere seen placed head rest := by
  fun_induction findHead seen placed with
  | case1 seen p q placed form kind declares =>
      obtain ⟨rfl, rfl⟩ := Prod.mk.inj (Option.some.inj found)
      have isName : q.token.kind = .name := beq_iff_eq.mp (Bool.and_eq_true_iff.mp declares).2
      refine ⟨[p], q, placed, rfl, rfl, isName, rfl, ?_⟩
      intro passed ahead named behind settled free same name
      obtain ⟨keyword, rfl, form_eq⟩ := List.map_eq_singleton_iff.mp same
      rw [List.singleton_append, findHead, form_eq, kind]
      simp only [name, any_head?_append free, modifiersBefore_of_isSettled settled, if_pos declares]
  | case2 seen p q placed form kind declares ih =>
      exact (ih found).passed fun _ _ => declares
  | case3 seen p q placed other ih =>
      exact (ih found).passed fun form kind => absurd kind (other form)
  | case4 => exact absurd found (by simp)

/-! ## Classes in context -/

/-- Behind tokens that may stand before a class, and with comments and white space anywhere, the
declaration is found as it is alone, but for the place of its name. -/
theorem exists_findHead_behind {tokens rest : List Token} {head : ClassHead}
    (found : findHead [] (significant tokens) = some (head, rest)) :
    ∃ x name y, tokens = x ++ name :: y ∧ x.length = head.offset ∧ name.kind = .name ∧
      rest = y.filter (!·.isTrivia) ∧
      ∀ leadIn before after, isLeadIn leadIn →
        before.filter (!·.isTrivia) = leadIn ++ x.filter (!·.isTrivia) →
        findHead [] (significant (before ++ name :: after)) =
          some ({ head with offset := before.length }, after.filter (!·.isTrivia)) := by
  obtain ⟨front, name, back, split, place, isName, rfl, anywhere⟩ :=
    isFoundAnywhere_of_findHead found
  have plain : !name.token.isTrivia := by
    rw [isTrivia, isName]
    rfl
  obtain ⟨x, y, whole, length, ahead, behind⟩ := exists_split_of_significant split
  refine ⟨x, name.token, y, whole, length.trans place, isName, behind.symm, ?_⟩
  intro leadIn before after aside written
  obtain ⟨forms, ends⟩ := Bool.and_eq_true_iff.mp aside
  have last : ∀ t ∈ leadIn.reverse.head?, !t.isModifier ∧ !blocksDeclaration t := by
    intro t head
    have last : leadIn.getLast? = some t := List.head?_reverse ▸ head
    rw [last] at ends
    simpa using ends
  rw [← map_token_significantFrom 0] at written
  obtain ⟨passed, front', placed, passed_eq, front_eq⟩ := List.map_eq_append_iff.mp written
  have found := anywhere leadIn.reverse front' ⟨name.token, before.length⟩
    (significantFrom (before.length + 1) after) (fun t head => (last t head).1)
    (fun t head => (last t head).2) (front_eq.trans ahead) rfl
  rw [significant_append_cons _ _ plain, placed, List.append_assoc,
    findHead_aside (by simp) (passed_eq ▸ forms), passed_eq, List.append_nil]
  rw [List.nil_append, map_token_significantFrom] at found
  exact found

/-- A complete class is read the same in any context. Before it may stand tokens without a form
keyword, the last of which is neither a modifier nor blocks a declaration; behind it any tokens; and
comments and white space anywhere. Only the offset is that of the same name in the new place. So the
tokens of a class node and those of the whole tree give the same shape. -/
theorem read_inContext (visibility : String) {tokens before : List Token}
    (noForm : ∀ t ∈ before, !(t.kind matches .form _))
    (apart : ∀ t ∈ (before.filter (!·.isTrivia)).getLast?, !t.isModifier ∧ !blocksDeclaration t)
    (complete : stopsAtBrace visibility tokens) :
    ∃ head name, (read visibility tokens).head = some head ∧ tokens[head.offset]? = some name ∧
      name.kind = .name ∧
      (∀ after source, source.filter (!·.isTrivia) =
          (before ++ tokens ++ after).filter (!·.isTrivia) →
        ∃ front back, source = front ++ name :: back ∧ front.filter (!·.isTrivia) =
            (before ++ tokens.take head.offset).filter (!·.isTrivia) ∧
          read visibility source =
            { read visibility tokens with head := some { head with offset := front.length } }) ∧
      ∀ source node root left right, SourceTree.StandsIn node root left right →
        SourceTree.tokens source node = tokens → SourceTree.tokensFrom source left = before →
        read visibility (SourceTree.tokens source root) =
          { read visibility tokens with
            head := some { head with offset := before.length + head.offset } } := by
  obtain ⟨head, rest, found, body⟩ := exists_of_stopsAtBrace complete
  obtain ⟨x, name, y, rfl, length, isName, rfl, behind⟩ := exists_findHead_behind found
  have alone : read visibility (x ++ name :: y) =
      ⟨some head, methodsFrom visibility [] (afterOpenBrace (y.filter (!·.isTrivia)))⟩ := by
    rw [read, found]
  have leadIn : isLeadIn (before.filter (!·.isTrivia)) := by
    apply isLeadIn_of_no_form _ apart
    exact fun t mem => noForm t (List.mem_of_mem_filter mem)
  -- The head is found at the name, and the body is the same up to its closing brace.
  have inContext : ∀ front back after,
      front.filter (!·.isTrivia) = (before ++ x).filter (!·.isTrivia) →
      back.filter (!·.isTrivia) = (y ++ after).filter (!·.isTrivia) →
      read visibility (front ++ name :: back) =
        { read visibility (x ++ name :: y) with
          head := some { head with offset := front.length } } := by
    intro front back after ahead rest
    rw [List.filter_append] at ahead rest
    rw [alone, read, behind _ front back leadIn ahead, rest]
    simp only [body]
  have taken : (x ++ name :: y).take head.offset = x := by
    rw [← length, List.take_left]
  refine ⟨head, name, by rw [alone], ?_, isName, ?_, ?_⟩
  · rw [← length, List.getElem?_append_right (Nat.le_refl _), Nat.sub_self, List.getElem?_cons_zero]
  · intro after source same
    have plain : !name.isTrivia := by
      rw [isTrivia, isName]
      rfl
    have split : source.filter (!·.isTrivia) = (before ++ x).filter (!·.isTrivia) ++
        name :: (y ++ after).filter (!·.isTrivia) := by
      rw [same]
      simp [plain]
    obtain ⟨front, back, rfl, ahead, rest, _⟩ := exists_split_of_filter split
    refine ⟨front, back, rfl, ?_, inContext front back after ahead rest⟩
    rw [taken, ahead]
  · rintro source node root left right stands own rfl
    have whole : SourceTree.tokens source root = (SourceTree.tokensFrom source left ++ x) ++
        name :: (y ++ SourceTree.tokensFrom source right) := by
      rw [stands.tokens_eq, own]
      simp
    rw [whole, inContext _ _ _ rfl rfl, List.length_append, length]

/-- The tag that begins the code of a source. -/
def openTag : Token :=
  ⟨.other, "<?php", 1⟩

/-- The abstract class behind a tag, with a comment, blanks and a word around its tokens. -/
def taggedSource : List Token :=
  openTag :: figureSource

/-- A leaf on the first line. -/
def leafOf (type : String) (start stop : Nat) : SourceTree.Node :=
  ⟨type, start, stop, 0, 0, false, none, []⟩

/-- An empty class. -/
def classNode : SourceTree.Node :=
  ⟨"class_declaration", 6, 17, 0, 0, false, none, [leafOf "class" 6 11, leafOf "name" 12 13,
    leafOf "\x7b" 14 15, leafOf "\x7d" 16 17]⟩

/-- The tree of a tag and the empty class. -/
def programNode : SourceTree.Node :=
  ⟨"program", 0, 17, 0, 0, false, none, [leafOf "php_tag" 0 5, classNode]⟩

theorem read_inContext_taggedSource :
    (stopsAtBrace "public" figureClass.tokens ∧
      taggedSource.filter (!·.isTrivia) = (openTag :: figureClass.tokens ++
        [Token.mk .name "more" 12]).filter (!·.isTrivia) ∧
      ∃ front name back, ∃ head : ClassHead, taggedSource = front ++ name :: back ∧
        read "public" taggedSource = { read "public" figureClass.tokens with
          head := some { head with offset := front.length } }) ∧
    let source := SourceTree.Source.ofText "<?php class A \x7b \x7d"
    stopsAtBrace "public" (SourceTree.tokens source classNode) ∧
      SourceTree.StandsIn classNode programNode [leafOf "php_tag" 0 5] [] ∧
      ∃ head : ClassHead, read "public" (SourceTree.tokens source programNode) =
        { read "public" (SourceTree.tokens source classNode) with
          head := some { head with offset := 1 + head.offset } } := by
  have noForm : ∀ t ∈ [openTag], !(t.kind matches .form _) := by decide
  have apart : ∀ t ∈ ([openTag].filter (!·.isTrivia)).getLast?,
      !t.isModifier ∧ !blocksDeclaration t := by
    decide
  constructor
  · have complete : stopsAtBrace "public" figureClass.tokens := by decide +kernel
    have same : taggedSource.filter (!·.isTrivia) = (openTag :: figureClass.tokens ++
        [Token.mk .name "more" 12]).filter (!·.isTrivia) := by decide
    obtain ⟨head, name, _, _, _, anywhere, _⟩ :=
      read_inContext "public" noForm apart complete
    obtain ⟨front, back, split, _, read⟩ := anywhere _ _ same
    exact ⟨complete, same, front, name, back, head, split, read⟩
  · intro source
    have before : SourceTree.tokensFrom source [leafOf "php_tag" 0 5] = [openTag] := by
      decide +kernel
    have complete : stopsAtBrace "public" (SourceTree.tokens source classNode) := by
      decide +kernel
    have split : programNode.children = [leafOf "php_tag" 0 5] ++ classNode :: [] := rfl
    have stands : SourceTree.StandsIn classNode programNode [leafOf "php_tag" 0 5] [] :=
      .child rfl rfl split .root
    obtain ⟨head, _, _, _, _, _, inTree⟩ :=
      read_inContext "public" noForm apart complete
    exact ⟨complete, stands, head, inTree _ _ _ _ _ stands rfl before⟩

end ClassShape

end RenderTrace
