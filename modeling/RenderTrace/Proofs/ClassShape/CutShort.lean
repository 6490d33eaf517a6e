import Mathlib.Data.List.TakeWhile
import RenderTrace.Proofs.ClassShape.Methods

/-!
# Methods that are cut short

What reading gives when the tokens end too early. A scanner that leaves tokens over
has read all it needs, so more tokens behind them change nothing. A scanner that
runs out has given an initial part of what it would give for the whole, and of that
only the last element can be incomplete.
-/

namespace RenderTrace

/-- The first list is an initial part of the second, but its last element may be cut short
itself, in the way the relation says. -/
inductive CutShort {α : Type} (R : α → α → Prop) : List α → List α → Prop
  | nil (whole : List α) : CutShort R [] whole
  | last {x y : α} (rest : List α) : R x y → CutShort R [x] (y :: rest)
  | cons (x : α) {xs ys : List α} : CutShort R xs ys → CutShort R (x :: xs) (x :: ys)

namespace CutShort

variable {α β : Type} {R : α → α → Prop} {S : β → β → Prop} {xs ys : List α}

theorem append_left (before : List α) (h : CutShort R xs ys) :
    CutShort R (before ++ xs) (before ++ ys) := by
  induction before with
  | nil => exact h
  | cons x before ih => exact CutShort.cons x ih

theorem map {f : α → β} (related : ∀ x y, R x y → S (f x) (f y)) (h : CutShort R xs ys) :
    CutShort S (xs.map f) (ys.map f) := by
  induction h with
  | nil whole => exact CutShort.nil _
  | last rest h => exact CutShort.last _ (related _ _ h)
  | cons x _ ih => exact CutShort.cons (f x) ih

/-- Filtering keeps the order; the last element counts only if it is kept. -/
theorem filter {T : α → α → Prop} {p : α → Bool} (kept : ∀ x y, R x y → p x → p y ∧ T x y)
    (h : CutShort R xs ys) : CutShort T (xs.filter p) (ys.filter p) := by
  induction h with
  | nil whole => exact CutShort.nil _
  | @last x y rest h =>
      by_cases keeps : p x
      · obtain ⟨whole, related⟩ := kept x y h keeps
        rw [List.filter_cons_of_pos keeps, List.filter_cons_of_pos whole]
        exact CutShort.last _ related
      · rw [List.filter_cons_of_neg keeps]
        exact CutShort.nil _
  | cons x _ ih =>
      by_cases keeps : p x
      · rw [List.filter_cons_of_pos keeps, List.filter_cons_of_pos keeps]
        exact CutShort.cons x ih
      · rw [List.filter_cons_of_neg keeps, List.filter_cons_of_neg keeps]
        exact ih

theorem flatMap_isPrefix {f : α → List β} (related : ∀ x y, R x y → f x <+: f y)
    (h : CutShort R xs ys) : xs.flatMap f <+: ys.flatMap f := by
  induction h with
  | nil whole => exact List.nil_prefix
  | @last x y rest h =>
      rw [List.flatMap_singleton, List.flatMap_cons]
      exact (related x y h).trans (List.prefix_append _ _)
  | cons x _ ih =>
      rw [List.flatMap_cons, List.flatMap_cons]
      exact (List.prefix_append_right_inj _).mpr ih

/-- Elements put before the first of the inner lists keep it an initial part. -/
theorem prepend_head {first whole : List α} {later more : List (List α)} (x : α)
    (h : CutShort (· <+: ·) (first :: later) (whole :: more)) :
    CutShort (· <+: ·) ((x :: first) :: later) ((x :: whole) :: more) := by
  cases h with
  | last _ h => exact CutShort.last _ ((List.prefix_cons_inj x).mpr h)
  | cons _ h => exact CutShort.cons _ h

end CutShort

namespace Token

/-! ## Scanners that leave tokens over -/

/-- A scanner that leaves tokens over has not looked past them: with more tokens behind, it gives
the same and leaves those as well. -/
def LooksNoFurther {β : Type} (scan : List Token → β × List Token) : Prop :=
  ∀ tokens more, (scan tokens).2 ≠ [] →
    scan (tokens ++ more) = ((scan tokens).1, (scan tokens).2 ++ more)

/-- A scanner that leaves tokens over was given some. -/
theorem ne_nil_of_left {β : Type} {scan : List Token → β × List Token} {tokens : List Token}
    (nothing : (scan []).2 = []) (left : (scan tokens).2 ≠ []) : tokens ≠ [] := by
  rintro rfl
  exact left nothing

theorem looksNoFurther_span (p : Token → Bool) :
    LooksNoFurther fun tokens => (tokens.takeWhile p, tokens.dropWhile p) := by
  intro tokens more left
  have left : tokens.dropWhile p ≠ [] := left
  have shorter : (tokens.takeWhile p).length ≠ tokens.length := by
    intro equal
    have all := congrArg List.length (List.takeWhile_append_dropWhile (p := p) (l := tokens))
    rw [List.length_append] at all
    exact left (List.length_eq_zero_iff.mp (by omega))
  simp only [List.takeWhile_append, List.dropWhile_append, if_neg shorter,
    List.isEmpty_eq_false_iff.mpr left, Bool.false_eq_true, if_false]

theorem looksNoFurther_afterClose (depth : Nat) :
    LooksNoFurther fun tokens => ((), afterClose depth tokens) := by
  intro tokens more left
  have left : afterClose depth tokens ≠ [] := left
  have after : afterClose depth (tokens ++ more) = afterClose depth tokens ++ more := by
    induction tokens generalizing depth with
    | nil => exact absurd rfl left
    | cons t tokens ih =>
        rw [afterClose] at left ⊢
        rw [List.cons_append, afterClose]
        split at left
        next opens =>
          rw [if_pos opens, if_pos opens]
          exact ih (depth + 1) left left
        next opens =>
          rw [if_neg opens, if_neg opens]
          split at left
          next closes =>
            rw [if_pos closes, if_pos closes]
            split at left
            next zero => rw [if_pos zero, if_pos zero]
            next zero =>
              rw [if_neg zero, if_neg zero]
              exact ih (depth - 1) left left
          next closes =>
            rw [if_neg closes, if_neg closes]
            exact ih depth left left
  exact Prod.ext rfl after

theorem afterBlock_append {tokens : List Token} (more : List Token)
    (left : afterBlock tokens ≠ []) : afterBlock (tokens ++ more) = afterBlock tokens ++ more := by
  cases tokens with
  | nil => exact absurd rfl left
  | cons t tokens => exact (Prod.mk.inj (looksNoFurther_afterClose 0 tokens more left)).2

/-! ## Parameter lists -/

/-- A list that ends before the tokens do is cut the same way whatever follows. -/
theorem groups_append {depth : Int} {tokens : List Token} (more : List Token)
    (left : (groups depth tokens).rest ≠ []) :
    groups depth (tokens ++ more) =
      { groups depth tokens with rest := (groups depth tokens).rest ++ more } := by
  induction tokens generalizing depth with
  | nil => exact absurd rfl left
  | cons t tokens ih =>
      rw [groups] at left ⊢
      rw [List.cons_append, groups]
      split at left
      next closing => rw [if_pos closing, if_pos closing]
      next closing =>
        rw [if_neg closing, if_neg closing]
        split at left
        next ending => rw [if_pos ending, if_pos ending]; rfl
        next ending =>
          rw [if_neg ending, if_neg ending]
          split at left
          next comma => rw [if_pos comma, if_pos comma, ih left]
          next comma => rw [if_neg comma, if_neg comma, ih left]

/-- The groups of tokens that end early are the groups of the whole, but for an incomplete last
one. -/
theorem groups_cutShort (depth : Int) (tokens more : List Token) :
    CutShort (· <+: ·) (groups depth tokens).all (groups depth (tokens ++ more)).all := by
  induction tokens generalizing depth with
  | nil => exact CutShort.last _ List.nil_prefix
  | cons t tokens ih =>
      rw [List.cons_append, groups, groups]
      split
      · exact CutShort.last _ (List.prefix_refl _)
      · split
        · exact CutShort.last _ (List.prefix_refl _)
        · split
          · exact CutShort.cons [] (ih 0)
          · exact (ih (depth + t.depthChange)).prepend_head t

/-- Setting attributes aside from an initial part gives an initial part. -/
theorem outsideAttributes_isPrefix (depth : Nat) {tokens whole : List Token}
    (h : tokens <+: whole) : outsideAttributes depth tokens <+: outsideAttributes depth whole := by
  obtain ⟨more, rfl⟩ := h
  induction tokens generalizing depth with
  | nil => exact List.nil_prefix
  | cons t tokens ih =>
      rw [List.cons_append, outsideAttributes, outsideAttributes]
      split
      · split
        · exact ih 1
        · exact (List.prefix_cons_inj t).mpr (ih 0)
      · split
        · exact ih (depth + 1)
        · split
          · exact ih (depth - 1)
          · exact ih depth

end Token

open Token

/-- A parameter whose group of tokens may end early, once its variable has been read: all but the
default and the tokens is complete. -/
structure Parameter.IsCutOf (p whole : Parameter) : Prop where
  name : p.name = whole.name
  type : p.type = whole.type
  isNullable : p.isNullable = whole.isNullable
  isVariadic : p.isVariadic = whole.isVariadic
  isByReference : p.isByReference = whole.isByReference
  tokens : p.tokens <+: whole.tokens

namespace Parameter

/-- The tokens a parameter keeps of an initial part of its group are an initial part of those it
keeps of the whole. -/
theorem tokens_ofGroup_isPrefix {group whole : List Token} (h : group <+: whole) :
    (ofGroup group).tokens <+: (ofGroup whole).tokens := by
  obtain ⟨more, bare⟩ := outsideAttributes_isPrefix 0 h
  simp only [ofGroup, ← bare]
  by_cases unnamed : (outsideAttributes 0 group).dropWhile (fun t => !t.namesParameter) = []
  · have before := List.dropWhile_eq_nil_iff.mp unnamed
    rw [unnamed, List.append_nil, List.takeWhile_eq_self_iff.mpr before,
      List.takeWhile_append_of_pos before, List.dropWhile_append_of_pos before,
      List.filter_append, List.append_assoc]
    exact List.prefix_append _ _
  · obtain ⟨before, named⟩ := Prod.mk.inj (looksNoFurther_span _ _ more unnamed)
    rw [before, named, ← List.append_assoc]
    exact List.prefix_append _ _

theorem isCutOf_ofGroup {group whole : List Token} (h : group <+: whole)
    (isNamed : (ofGroup group).name.isSome) : (ofGroup group).IsCutOf (ofGroup whole) := by
  obtain ⟨more, bare⟩ := outsideAttributes_isPrefix 0 h
  have left : (outsideAttributes 0 group).dropWhile (fun t => !t.namesParameter) ≠ [] := by
    intro unnamed
    simp [ofGroup, unnamed] at isNamed
  obtain ⟨before, named⟩ := Prod.mk.inj (looksNoFurther_span _ _ more left)
  -- What stands before the variable is the same, and so is all that is told from it.
  constructor
  case name =>
    obtain ⟨t, rest, equal⟩ := List.exists_cons_of_ne_nil left
    simp only [ofGroup, ← bare, named, equal]
    rfl
  case tokens => exact tokens_ofGroup_isPrefix h
  all_goals simp only [ofGroup, ← bare, before]

end Parameter

/-! ## The return type and the body -/

namespace ReturnType

/-- A return type whose words may end early. -/
structure IsCutOf (r whole : ReturnType) : Prop where
  isNullable : r.isNullable = whole.isNullable
  text : ∃ more, whole.text = r.text ++ more

theorem isCutOf_of_joinTexts? {isNullable : Bool} {words : List Token} {r : ReturnType}
    (more : List Token) (h : (joinTexts? words).map (ReturnType.mk isNullable) = some r) :
    ∃ whole, (joinTexts? (words ++ more)).map (ReturnType.mk isNullable) = some whole ∧
      r.IsCutOf whole := by
  cases words with
  | nil => exact absurd h (by simp [joinTexts?])
  | cons t words =>
      refine ⟨⟨isNullable, joinTexts (t :: words ++ more)⟩, rfl, ?_⟩
      obtain rfl : ⟨isNullable, joinTexts (t :: words)⟩ = r := Option.some.inj h
      refine ⟨rfl, joinTexts more, ?_⟩
      simp only [joinTexts, List.map_append, String.join_append]

theorem isCutOf_of_ofTokens? {words : List Token} {r : ReturnType} (more : List Token)
    (h : ofTokens? words = some r) :
    ∃ whole, ofTokens? (words ++ more) = some whole ∧ r.IsCutOf whole := by
  cases words with
  | nil => exact absurd h (by simp [ofTokens?, joinTexts?])
  | cons t words =>
      rw [List.cons_append]
      by_cases nullable : t.marksNullable
      · simp only [ofTokens?, List.head?_cons, Option.any_some, nullable, if_true,
          List.tail_cons] at h ⊢
        exact isCutOf_of_joinTexts? more h
      · simp only [ofTokens?, List.head?_cons, Option.any_some, nullable, Bool.false_eq_true,
          if_false] at h ⊢
        exact isCutOf_of_joinTexts? more h

theorem looksNoFurther_read : LooksNoFurther read := by
  intro tokens more left
  cases tokens with
  | nil => exact absurd rfl left
  | cons t tokens =>
      rw [read] at left ⊢
      rw [List.cons_append, read]
      split at left
      next colon =>
        obtain ⟨words, after⟩ := Prod.mk.inj (looksNoFurther_span isPart tokens more left)
        rw [if_pos colon, if_pos colon, words, after]
      next colon =>
        rw [if_neg colon, if_neg colon]
        rfl

theorem isCutOf_of_read {tokens : List Token} {r : ReturnType} (more : List Token)
    (h : (read tokens).1 = some r) :
    ∃ whole, (read (tokens ++ more)).1 = some whole ∧ r.IsCutOf whole := by
  cases tokens with
  | nil => exact absurd h (by simp [read])
  | cons t tokens =>
      rw [read] at h
      rw [List.cons_append, read]
      split at h
      next colon =>
        obtain ⟨words, equal⟩ : tokens.takeWhile isPart <+: (tokens ++ more).takeWhile isPart := by
          rw [List.takeWhile_append]
          split
          · have taken : tokens.takeWhile isPart <+: tokens := List.takeWhile_prefix isPart
            exact taken.trans (List.prefix_append _ _)
          · exact List.prefix_refl _
        rw [if_pos colon, ← equal]
        exact isCutOf_of_ofTokens? words h
      next colon => exact absurd h (by simp)

end ReturnType

namespace Method

theorem looksNoFurther_readBody : LooksNoFurther readBody := by
  intro tokens more left
  cases tokens with
  | nil => exact absurd rfl left
  | cons t tokens =>
      rw [readBody] at left ⊢
      rw [List.cons_append, readBody]
      split at left
      next semicolon => rw [if_pos semicolon, if_pos semicolon]
      next semicolon =>
        rw [if_neg semicolon, if_neg semicolon]
        split at left
        next opens =>
          rw [if_pos opens, if_pos opens, ← List.cons_append, afterBlock_append more left]
        next opens =>
          rw [if_neg opens, if_neg opens]
          rfl

/-- A semicolon in place of the body is seen whatever follows it. -/
theorem fst_readBody_append {tokens : List Token} (more : List Token)
    (h : (readBody tokens).1 = true) : (readBody (tokens ++ more)).1 = true := by
  cases tokens with
  | nil => exact absurd h (by simp [readBody])
  | cons t tokens =>
      rw [readBody] at h
      rw [List.cons_append, readBody]
      split at h
      next semicolon => rw [if_pos semicolon]
      next semicolon =>
        split at h
        · exact absurd h (by simp)
        · exact absurd h (by simp)

/-! ## The method -/

/-- A method whose tokens may end early: its head is complete, and the parts after it are as far as
they were read. -/
structure IsCutOf (m whole : Method) : Prop where
  name : m.name = whole.name
  line : m.line = whole.line
  visibility : m.visibility = whole.visibility
  visibilityText : m.visibilityText = whole.visibilityText
  isStatic : m.isStatic = whole.isStatic
  isAbstract : m.isAbstract → whole.isAbstract
  returnType : ∀ r ∈ m.returnType, ∃ r' ∈ whole.returnType, r.IsCutOf r'
  signature : m.signature <+: whole.signature
  parameters : CutShort Parameter.IsCutOf m.parameters whole.parameters

/-- Where nothing is left after the parameter list, there is no return type and no body. -/
theorem ne_nil_of_returnType {tokens : List Token} {r : ReturnType}
    (h : (ReturnType.read tokens).1 = some r) : tokens ≠ [] := by
  rintro rfl
  exact absurd h (by simp [ReturnType.read])

theorem looksNoFurther_readNamed (visibility : String) (modifiers : List Token) (name : Token) :
    LooksNoFurther (readNamed visibility modifiers name) := by
  intro tokens more left
  have typed : (ReturnType.read (groups 0 tokens).rest).2 ≠ [] := ne_nil_of_left rfl left
  have listed : (groups 0 tokens).rest ≠ [] := ne_nil_of_left rfl typed
  simp only [readNamed, groups_append more listed, ReturnType.looksNoFurther_read _ more typed,
    looksNoFurther_readBody _ more left]

theorem isCutOf_readNamed (visibility : String) (modifiers : List Token) (name : Token)
    (tokens more : List Token) :
    (readNamed visibility modifiers name tokens).1.IsCutOf
      (readNamed visibility modifiers name (tokens ++ more)).1 := by
  have cut := groups_cutShort 0 tokens more
  constructor
  case isAbstract =>
    intro h
    simp only [readNamed, Bool.or_eq_true] at h ⊢
    refine h.imp_left ?_
    intro semicolon
    have typed : (ReturnType.read (groups 0 tokens).rest).2 ≠ [] := by
      intro none
      rw [none] at semicolon
      exact absurd semicolon (by simp [readBody])
    have listed : (groups 0 tokens).rest ≠ [] := ne_nil_of_left rfl typed
    rw [groups_append more listed, ReturnType.looksNoFurther_read _ more typed]
    exact fst_readBody_append more semicolon
  case returnType =>
    intro r h
    have h : (ReturnType.read (groups 0 tokens).rest).1 = some r := h
    have listed := groups_append more (ne_nil_of_returnType h)
    simp only [readNamed, listed]
    exact ReturnType.isCutOf_of_read more h
  case signature =>
    simp only [readNamed, List.flatMap_map]
    exact cut.flatMap_isPrefix fun _ _ => Parameter.tokens_ofGroup_isPrefix
  case parameters =>
    simp only [readNamed, List.filter_map]
    have named : CutShort
        (fun group whole => group <+: whole ∧ (Parameter.ofGroup group).name.isSome) _ _ :=
      cut.filter (p := fun group => (Parameter.ofGroup group).name.isSome) ?_
    · apply named.map
      rintro group whole ⟨related, named⟩
      exact Parameter.isCutOf_ofGroup related named
    · intro group whole related named
      have same := (Parameter.isCutOf_ofGroup related named).name
      exact ⟨same ▸ named, related, named⟩
  all_goals rfl

/-- Reading from the name on; without a name the tokens after the keyword are left. -/
def readFromName (visibility : String) (modifiers tokens : List Token) :
    List Token → Option Method × List Token
  | [] => (none, [])
  | name :: rest =>
    if name.kind.isNeverName then (none, tokens)
    else match rest with
      | [] => (none, [])
      | t :: inside =>
        if t.text = "(" then
          ((some (readNamed visibility modifiers name inside).1),
            (readNamed visibility modifiers name inside).2)
        else (none, t :: inside)

theorem read_cons (visibility : String) (modifiers : List Token) (t : Token)
    (tokens : List Token) :
    read visibility modifiers (t :: tokens) =
      readFromName visibility modifiers (t :: tokens)
        (if t.text = "&" then tokens else t :: tokens) := by
  rfl

/-- What is read from the name on when more tokens follow. -/
theorem readFromName_append {visibility : String} {modifiers tokens named : List Token}
    (more : List Token) (left : (readFromName visibility modifiers tokens named).2 ≠ []) :
    readFromName visibility modifiers (tokens ++ more) (named ++ more) =
      ((readFromName visibility modifiers tokens named).1,
        (readFromName visibility modifiers tokens named).2 ++ more) := by
  cases named with
  | nil => exact absurd rfl left
  | cons name rest =>
      rw [readFromName.eq_def] at left ⊢
      rw [List.cons_append, readFromName.eq_def]
      simp only at left ⊢
      split at left
      next never => rw [if_pos never, if_pos never]
      next never =>
        rw [if_neg never, if_neg never]
        cases rest with
        | nil => exact absurd rfl left
        | cons t inside =>
            rw [List.cons_append]
            simp only at left ⊢
            split at left
            next opens =>
              rw [if_pos opens, if_pos opens, looksNoFurther_readNamed _ _ _ _ more left]
            next opens =>
              rw [if_neg opens, if_neg opens]
              rfl

theorem isCutOf_readFromName {visibility : String} {modifiers tokens named : List Token}
    {m : Method} (more : List Token)
    (h : (readFromName visibility modifiers tokens named).1 = some m) :
    ∃ whole, (readFromName visibility modifiers (tokens ++ more) (named ++ more)).1 = some whole ∧
      m.IsCutOf whole := by
  cases named with
  | nil => exact absurd h (by simp [readFromName])
  | cons name rest =>
      rw [readFromName.eq_def] at h
      rw [List.cons_append, readFromName.eq_def]
      simp only at h ⊢
      split at h
      next never => exact absurd h (by simp)
      next never =>
        rw [if_neg never]
        cases rest with
        | nil => exact absurd h (by simp)
        | cons t inside =>
            rw [List.cons_append]
            simp only at h ⊢
            split at h
            next opens =>
              rw [if_pos opens]
              obtain rfl := Option.some.inj h
              exact ⟨_, rfl, isCutOf_readNamed visibility modifiers name inside more⟩
            next opens => exact absurd h (by simp)

theorem looksNoFurther_read (visibility : String) (modifiers : List Token) :
    LooksNoFurther (read visibility modifiers) := by
  intro tokens more left
  cases tokens with
  | nil => exact absurd rfl left
  | cons t tokens =>
      rw [read_cons] at left ⊢
      rw [List.cons_append, read_cons]
      split at left
      next ampersand =>
        rw [if_pos ampersand, if_pos ampersand]
        exact readFromName_append more left
      next ampersand =>
        rw [if_neg ampersand, if_neg ampersand]
        exact readFromName_append more left

theorem isCutOf_of_read {visibility : String} {modifiers tokens : List Token} {m : Method}
    (more : List Token) (h : (read visibility modifiers tokens).1 = some m) :
    ∃ whole, (read visibility modifiers (tokens ++ more)).1 = some whole ∧ m.IsCutOf whole := by
  cases tokens with
  | nil => exact absurd h (by simp [read])
  | cons t tokens =>
      rw [read_cons] at h
      rw [List.cons_append, read_cons]
      split at h
      next ampersand =>
        rw [if_pos ampersand]
        exact isCutOf_readFromName more h
      next ampersand =>
        rw [if_neg ampersand]
        exact isCutOf_readFromName more h

end Method

end RenderTrace
