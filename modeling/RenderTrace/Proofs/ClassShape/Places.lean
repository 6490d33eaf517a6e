import Mathlib.Data.List.DropRight
import RenderTrace.Proofs.ClassShape.Unclosed

/-!
# Where methods are read

Whatever the tokens are, each method that is read stands at a function keyword of its
own in the body of the class, and the keywords come in the order of the methods. What
is read of a method is found between its modifiers and the next of these keywords.

## Implementation notes

Every scanner leaves an end part of its tokens. So the tokens passed and those to come
make up the body all along, and the number of tokens passed is the place of the next.
-/

namespace RenderTrace
open Token ClassShape
open scoped List

namespace ClassShape

/-! ## The description of a method -/

/-- The place of the name of a method whose keyword stands at the given place: behind it, or behind
one ampersand there. -/
def namePlace (body : List Token) (place : Nat) : Nat :=
  if body[place + 1]?.any (·.text == "&") then place + 2 else place + 1

/-- All the modifiers directly before a place. -/
def modifiersAt (body : List Token) (place : Nat) : List Token :=
  (body.take place).rtakeWhile (·.isModifier)

/-- The last visibility among modifiers. -/
def lastVisibility? (modifiers : List Token) : Option Token :=
  (modifiers.filter fun t => t.kind matches .modifier (.visibility _)).getLast?

/-- A semicolon stands behind the parameter list that is open before the tokens and the return type
after it. -/
def endsInSemicolon (tokens : List Token) : Bool :=
  (ReturnType.read (groups 0 tokens).rest).2.head?.any (·.text == ";")

/-- What is read of a method is what stands from its modifiers, before the keyword at the place, up
to the next place. -/
structure DeclaredAt (visibility : String) (body : List Token) (place next : Nat) (m : Method) :
    Prop where
  keyword : body[place]?.map (·.kind) = some .function
  name : body[namePlace body place]?.map (fun t => (t.text, t.line)) = some (m.name, m.line)
  opens : body[namePlace body place + 1]?.map (·.text) = some "("
  visibility_eq : m.visibility =
    ((lastVisibility? (modifiersAt body place)).map fun t => Text.lower t.text).getD visibility
  visibilityText_eq : m.visibilityText = (lastVisibility? (modifiersAt body place)).map (·.text)
  isStatic_eq : m.isStatic = (modifiersAt body place).any (·.kind == .modifier .static)
  isAbstract_eq : m.isAbstract = ((modifiersAt body place).any (·.kind == .modifier .abstract) ||
    endsInSemicolon (body.drop (namePlace body place + 2)))
  signature : m.signature <+ (body.take next).drop (namePlace body place + 2)
  returnType : m.returnType.map (·.isNullable) = none ↔ m.returnType.map (·.text) = none

/-- The methods stand at increasing places from `start` on, and each up to the place of the next. -/
structure DeclaredFrom (visibility : String) (body : List Token) (start : Nat)
    (places : List Nat) (methods : List Method) : Prop where
  length_eq : places.length = methods.length
  increasing : places.Pairwise (· < ·)
  later : ∀ place ∈ places, start ≤ place
  declared : ∀ i place m, places[i]? = some place → methods[i]? = some m →
    DeclaredAt visibility body place (places[i + 1]?.getD body.length) m

/-- The declaration of a class ends with the brace that opens its body. -/
def Opens (head : ClassHead) (tokens front : List Token) : Prop :=
  ∃ before keyword name header opening,
    front = before ++ keyword :: name :: header ++ [opening] ∧
      keyword.kind = .form head.form ∧ name.kind = .name ∧ name.text = head.name ∧
      name.line = head.line ∧ tokens[head.offset]? = some name ∧
      (∀ t ∈ header, t.text ≠ openBrace) ∧ opening.text = openBrace

namespace DeclaredFrom

variable {visibility : String} {body : List Token} {start stop : Nat} {places : List Nat}
  {m : Method} {ms : List Method}

theorem nil : DeclaredFrom visibility body start [] [] :=
  ⟨rfl, List.Pairwise.nil, List.forall_mem_nil _, fun _ _ _ at_ => absurd at_ (by simp)⟩

theorem mono (later : start ≤ stop) (h : DeclaredFrom visibility body stop places ms) :
    DeclaredFrom visibility body start places ms :=
  ⟨h.length_eq, h.increasing, fun p mem => later.trans (h.later p mem), h.declared⟩

/-- A method that was read up to some place stands before those read from there on. -/
theorem cons (first : ∀ next, stop ≤ next → DeclaredAt visibility body start next m)
    (before : start < stop) (inside : stop ≤ body.length)
    (h : DeclaredFrom visibility body stop places ms) :
    DeclaredFrom visibility body start (start :: places) (m :: ms) where
  length_eq := congrArg Nat.succ h.length_eq
  increasing := List.Pairwise.cons (fun p mem => before.trans_le (h.later p mem)) h.increasing
  later := by
    intro p mem
    rcases List.mem_cons.mp mem with rfl | mem
    · exact le_rfl
    · exact before.le.trans (h.later p mem)
  declared := by
    intro i place method atPlace atMethod
    cases i with
    | zero =>
        obtain rfl : start = place := Option.some.inj atPlace
        obtain rfl : m = method := Option.some.inj atMethod
        apply first
        cases places with
        | nil => exact inside
        | cons p places => exact h.later p List.mem_cons_self
    | succ i => exact h.declared i place method atPlace atMethod

end DeclaredFrom

end ClassShape

/-! ## What the scanners leave -/

namespace Token

theorem afterClose_suffix (depth : Nat) (tokens : List Token) :
    afterClose depth tokens <:+ tokens := by
  induction tokens generalizing depth with
  | nil => exact List.suffix_rfl
  | cons t tokens ih =>
      rw [afterClose]
      split
      · exact (ih _).trans (List.suffix_cons t tokens)
      · split
        · split
          · exact List.suffix_cons t tokens
          · exact (ih _).trans (List.suffix_cons t tokens)
        · exact (ih _).trans (List.suffix_cons t tokens)

theorem afterBlock_suffix (tokens : List Token) : afterBlock tokens <:+ tokens :=
  (afterClose_suffix 0 tokens.tail).trans (List.tail_suffix tokens)

/-- The groups of a list are among the tokens before those that are left. -/
theorem groups_split (depth : Int) (tokens : List Token) :
    ∃ used, tokens = used ++ (groups depth tokens).rest ∧
      (groups depth tokens).all.flatten <+ used := by
  induction tokens generalizing depth with
  | nil => exact ⟨[], rfl, List.Sublist.refl _⟩
  | cons t tokens ih =>
      rw [groups]
      split
      · exact ⟨[t], rfl, List.nil_sublist _⟩
      · split
        · exact ⟨[], rfl, List.Sublist.refl _⟩
        · split
          · obtain ⟨used, split, sub⟩ := ih 0
            exact ⟨t :: used, congrArg (t :: ·) split, sub.cons t⟩
          · obtain ⟨used, split, sub⟩ := ih (depth + t.depthChange)
            exact ⟨t :: used, congrArg (t :: ·) split, sub.cons_cons t⟩

theorem outsideAttributes_sublist (depth : Nat) (tokens : List Token) :
    outsideAttributes depth tokens <+ tokens := by
  induction tokens generalizing depth with
  | nil => exact List.Sublist.refl _
  | cons t tokens ih =>
      rw [outsideAttributes]
      split
      · split
        · exact (ih _).cons t
        · exact (ih _).cons_cons t
      · split
        · exact (ih _).cons t
        · split
          · exact (ih _).cons t
          · exact (ih _).cons t

end Token

/-- A parameter keeps tokens of its group, in their order. -/
theorem Parameter.tokens_ofGroup_sublist (group : List Token) :
    (ofGroup group).tokens <+ group := by
  have bare := outsideAttributes_sublist 0 group
  rw [← List.takeWhile_append_dropWhile (p := fun t => !t.namesParameter)
    (l := outsideAttributes 0 group)] at bare
  exact (List.filter_sublist.append (List.Sublist.refl _)).trans bare

theorem Parameter.flatMap_tokens_ofGroup_sublist (gs : List (List Token)) :
    (gs.map ofGroup).flatMap (·.tokens) <+ gs.flatten := by
  induction gs with
  | nil => exact List.Sublist.refl _
  | cons g gs ih => exact (tokens_ofGroup_sublist g).append ih

theorem ReturnType.read_suffix (tokens : List Token) : (read tokens).2 <:+ tokens := by
  cases tokens with
  | nil => exact List.suffix_rfl
  | cons t rest =>
      rw [read]
      split
      · exact (List.dropWhile_suffix _).trans (List.suffix_cons t rest)
      · exact List.suffix_rfl

namespace Method

theorem readBody_suffix (tokens : List Token) : (readBody tokens).2 <:+ tokens := by
  cases tokens with
  | nil => exact List.suffix_rfl
  | cons t rest =>
      rw [readBody]
      split
      · exact List.suffix_cons t rest
      · split
        · exact afterBlock_suffix (t :: rest)
        · exact List.suffix_rfl

theorem readBody_fst (tokens : List Token) :
    (readBody tokens).1 = tokens.head?.any (·.text == ";") := by
  cases tokens with
  | nil => rfl
  | cons t rest =>
      rw [readBody]
      split
      next semicolon => simp [semicolon]
      next other => split <;> simp [other]

/-- The signature of a method is among the tokens that are read of it. -/
theorem readNamed_split (visibility : String) (modifiers : List Token) (name : Token)
    (tokens : List Token) :
    ∃ used, tokens = used ++ (readNamed visibility modifiers name tokens).2 ∧
      (readNamed visibility modifiers name tokens).1.signature <+ used := by
  obtain ⟨listed, split, sub⟩ := groups_split 0 tokens
  obtain ⟨more, rest⟩ : (readNamed visibility modifiers name tokens).2 <:+ (groups 0 tokens).rest :=
    (readBody_suffix _).trans (ReturnType.read_suffix _)
  refine ⟨listed ++ more, ?_, ?_⟩
  · rw [List.append_assoc, rest, ← split]
  · exact ((Parameter.flatMap_tokens_ofGroup_sublist _).trans sub).trans
      (List.sublist_append_left listed more)

/-- What is read behind one ampersand or none. -/
theorem exists_marks (tokens : List Token) :
    ∃ marks, tokens = marks ++ (match tokens with
      | t :: rest => if t.text = "&" then rest else t :: rest
      | [] => []) ∧
      (marks = [] ∧ (∀ t ∈ tokens.head?, t.text ≠ "&") ∨ ∃ t, marks = [t] ∧ t.text = "&") := by
  cases tokens with
  | nil => exact ⟨[], rfl, .inl ⟨rfl, by simp⟩⟩
  | cons t rest =>
      by_cases ampersand : t.text = "&"
      · exact ⟨[t], by simp [ampersand], .inr ⟨t, rfl, ampersand⟩⟩
      · exact ⟨[], by simp [ampersand], .inl ⟨rfl, by simpa using ampersand⟩⟩

/-- After a keyword either no method is read and an end part is left, or there are a name and a
parenthesis, with one ampersand or none before them, and the method of that name is read. -/
theorem read_cases (visibility : String) (modifiers tokens : List Token) :
    (∃ before after, tokens = before ++ after ∧
      read visibility modifiers tokens = (none, after)) ∨
    ∃ marks name opening inside, tokens = marks ++ name :: opening :: inside ∧
      (marks = [] ∧ name.text ≠ "&" ∨ ∃ t, marks = [t] ∧ t.text = "&") ∧ opening.text = "(" ∧
      read visibility modifiers tokens =
        (some (readNamed visibility modifiers name inside).1,
          (readNamed visibility modifiers name inside).2) := by
  obtain ⟨marks, split, marked⟩ := exists_marks tokens
  unfold read
  simp only
  split
  · exact .inl ⟨tokens, [], (List.append_nil tokens).symm, rfl⟩
  next name rest behind =>
    have split : tokens = marks ++ name :: rest := split.trans (congrArg (marks ++ ·) behind)
    split
    · exact .inl ⟨[], tokens, rfl, rfl⟩
    · split
      · exact .inl ⟨tokens, [], (List.append_nil tokens).symm, rfl⟩
      next opening inside =>
        split
        next opens =>
          refine .inr ⟨marks, name, opening, inside, split, ?_, opens, rfl⟩
          rcases marked with ⟨rfl, plain⟩ | ampersand
          · exact .inl ⟨rfl, plain name (by rw [split]; rfl)⟩
          · exact .inr ampersand
        next => exact .inl ⟨marks ++ [name], opening :: inside, by simp [split], rfl⟩

/-- What is left after a function keyword is an end part of what stands there. -/
theorem read_suffix (visibility : String) (modifiers tokens : List Token) :
    (read visibility modifiers tokens).2 <:+ tokens := by
  obtain ⟨before, after, split, read⟩ | ⟨marks, name, opening, inside, split, _, _, read⟩ :=
    read_cases visibility modifiers tokens
  · rw [read]
    exact ⟨before, split.symm⟩
  · obtain ⟨used, inner, _⟩ := readNamed_split visibility modifiers name inside
    have whole : tokens = marks ++ name :: opening :: used ++
        (readNamed visibility modifiers name inside).2 := by
      rw [split, List.append_assoc, List.cons_append, List.cons_append, ← inner]
    rw [read]
    exact ⟨_, whole.symm⟩

end Method

namespace ClassShape

variable {visibility : String} {seen tokens : List Token}

/-! ## The methods of a body -/

/-- Tokens that come after those that were passed. -/
theorem getElem?_ahead {front : List Token} {place : Nat} (length : front.length = place)
    (tokens : List Token) (k : Nat) : (front ++ tokens)[place + k]? = tokens[k]? := by
  rw [← length, List.getElem?_append_right (Nat.le_add_right _ _), Nat.add_sub_cancel_left]

theorem modifiersAt_ahead (seen tokens : List Token) :
    modifiersAt (seen.reverse ++ tokens) seen.length = modifiersBefore seen := by
  have taken : (seen.reverse ++ tokens).take seen.length = seen.reverse := by
    rw [← List.length_reverse, List.take_left]
  rw [modifiersAt, taken, List.rtakeWhile, List.reverse_reverse, modifiersBefore]

/-- What follows some tokens stands between their end and any later place. -/
theorem isPrefix_between {front used after : List Token} {next : Nat}
    (later : front.length + used.length ≤ next) :
    used <+: ((front ++ (used ++ after)).take next).drop front.length := by
  rw [List.drop_take, List.drop_left, List.prefix_take_iff]
  exact ⟨List.prefix_append used after, by omega⟩

/-- The name of a method stands behind its keyword and an ampersand there. -/
theorem namePlace_ahead {keyword name : Token} {marks rest : List Token}
    (marked : marks = [] ∧ name.text ≠ "&" ∨ ∃ t, marks = [t] ∧ t.text = "&") :
    namePlace (seen.reverse ++ keyword :: (marks ++ name :: rest)) seen.length =
      seen.length + 1 + marks.length := by
  rw [namePlace, getElem?_ahead List.length_reverse]
  rcases marked with ⟨rfl, plain⟩ | ⟨t, rfl, ampersand⟩
  · simp [plain]
  · simp [ampersand]

/-- A method that is read at a keyword stands there. -/
theorem declaredAt_of_read {keyword : Token} {rest used after : List Token} {m : Method}
    (kind : keyword.kind = .function)
    (found : Method.read visibility (modifiersBefore seen) rest = (some m, after))
    (split : rest = used ++ after) {next : Nat} (later : seen.length + 1 + used.length ≤ next) :
    DeclaredAt visibility (seen.reverse ++ keyword :: rest) seen.length next m := by
  obtain ⟨_, _, _, none⟩ | ⟨marks, name, opening, inside, rfl, marked, opens, named⟩ :=
    Method.read_cases visibility (modifiersBefore seen) rest
  · exact absurd (congrArg Prod.fst (found.symm.trans none)) (by simp)
  obtain ⟨read, inner, signature⟩ :=
    Method.readNamed_split visibility (modifiersBefore seen) name inside
  obtain ⟨method, left⟩ := Prod.mk.inj (named.symm.trans found)
  obtain rfl : (Method.readNamed visibility (modifiersBefore seen) name inside).1 = m :=
    Option.some.inj method
  rw [left] at inner
  have place : namePlace (seen.reverse ++ keyword :: (marks ++ name :: opening :: inside))
      seen.length = seen.length + 1 + marks.length := namePlace_ahead marked
  -- The body up to the name, and up to the parenthesis.
  have front : (seen.reverse ++ keyword :: marks).length = seen.length + 1 + marks.length := by
    simp
    omega
  have opened : (seen.reverse ++ keyword :: marks ++ [name, opening]).length =
      seen.length + 1 + marks.length + 2 := by
    rw [List.length_append, front]
    rfl
  have atName : seen.reverse ++ keyword :: (marks ++ name :: opening :: inside) =
      seen.reverse ++ keyword :: marks ++ name :: opening :: inside := by simp
  have behind : seen.reverse ++ keyword :: (marks ++ name :: opening :: inside) =
      seen.reverse ++ keyword :: marks ++ [name, opening] ++ inside := by simp
  have enough : (seen.reverse ++ keyword :: marks ++ [name, opening]).length + read.length ≤
      next := by
    have length := congrArg List.length split
    rw [inner] at length
    simp only [List.length_append, List.length_cons] at length
    omega
  have modifiers := modifiersAt_ahead seen (keyword :: (marks ++ name :: opening :: inside))
  have visibilities : Method.visibilityModifier? (modifiersBefore seen) =
      lastVisibility? (modifiersBefore seen) := Method.visibilityModifier?_eq _
  constructor
  case keyword =>
    exact (congrArg (Option.map _) (getElem?_ahead List.length_reverse
      (keyword :: (marks ++ name :: opening :: inside)) 0)).trans (congrArg some kind)
  case name =>
    rw [place, atName]
    exact congrArg (Option.map _) (getElem?_ahead front (name :: opening :: inside) 0)
  case opens =>
    rw [place, atName]
    exact (congrArg (Option.map _) (getElem?_ahead front (name :: opening :: inside) 1)).trans
      (congrArg some opens)
  case visibility_eq =>
    rw [modifiers, ← visibilities]
    rfl
  case visibilityText_eq =>
    rw [modifiers, ← visibilities]
    rfl
  case isStatic_eq =>
    rw [modifiers]
    rfl
  case isAbstract_eq =>
    rw [modifiers, place, behind, ← opened, List.drop_left, Bool.or_comm]
    exact congrArg (· || _) (Method.readBody_fst _)
  case signature =>
    have between : read <+: ((seen.reverse ++ keyword :: marks ++ [name, opening] ++
        (read ++ after)).take next).drop
          (seen.reverse ++ keyword :: marks ++ [name, opening]).length :=
      isPrefix_between enough
    rw [place, behind, ← opened]
    exact signature.trans (inner ▸ between).sublist
  case returnType => simp

/-- Passing tokens keeps the body. -/
theorem DeclaredFrom.passed {used tokens after : List Token} {places : List Nat}
    {ms : List Method} (split : tokens = used ++ after)
    (h : DeclaredFrom visibility ((passed tokens after ++ seen).reverse ++ after)
      (passed tokens after ++ seen).length places ms) :
    DeclaredFrom visibility (seen.reverse ++ tokens) (seen.length + used.length) places ms := by
  have body : (used.reverse ++ seen).reverse ++ after = seen.reverse ++ (used ++ after) := by simp
  rw [split, passed_append, body, List.length_append, List.length_reverse, Nat.add_comm] at h
  rwa [split]

/-- The methods of a body stand at places in it, from the first token that has not been passed. -/
theorem exists_declaredFrom (visibility : String) (seen tokens : List Token) :
    ∃ places, DeclaredFrom visibility (seen.reverse ++ tokens) seen.length places
      (methodsFrom visibility seen tokens) := by
  fun_induction methodsFrom visibility seen tokens with
  | case1 seen => exact ⟨[], DeclaredFrom.nil⟩
  | case2 seen t rest closes => exact ⟨[], DeclaredFrom.nil⟩
  | case3 seen t rest notClose opens ih =>
      obtain ⟨block, split⟩ := afterBlock_suffix (t :: rest)
      obtain ⟨places, declared⟩ := ih
      exact ⟨places, (declared.passed split.symm).mono (Nat.le_add_right _ _)⟩
  | case4 seen t rest notClose notOpen kind found ih =>
      obtain ⟨used, split⟩ := Method.read_suffix visibility (modifiersBefore seen) rest
      obtain ⟨places, declared⟩ := ih
      have ahead : t :: rest = (t :: used) ++ found.2 := congrArg (t :: ·) split.symm
      have behind := declared.passed ahead
      cases method : found.1 with
      | none => exact ⟨places, behind.mono (Nat.le_add_right _ _)⟩
      | some m =>
          have read : Method.read visibility (modifiersBefore seen) rest = (some m, found.2) :=
            Prod.ext method rfl
          refine ⟨seen.length :: places, DeclaredFrom.cons ?_ ?_ ?_ behind⟩
          · intro next later
            apply declaredAt_of_read kind read split.symm
            rw [List.length_cons] at later
            omega
          · rw [List.length_cons]
            omega
          · rw [← split, List.length_append, List.length_reverse, List.length_cons,
              List.length_cons, List.length_append]
            omega
  | case5 seen t rest notClose notOpen other ih =>
      obtain ⟨places, declared⟩ := ih
      rw [List.reverse_cons, List.append_assoc, List.singleton_append] at declared
      exact ⟨places, declared.mono (Nat.le_succ _)⟩

/-! ## The body of the class -/

theorem getElem?_of_mem_significant {tokens : List Token} {p : Placed}
    (mem : p ∈ significant tokens) : tokens[p.place]? = some p.token := by
  obtain ⟨q, kept, rfl⟩ := List.mem_map.mp mem
  exact List.mem_zipIdx_iff_getElem?.mp (List.mem_of_mem_filter kept)

/-- The body begins behind the first opening brace. -/
theorem exists_of_afterOpenBrace {tokens : List Token} (more : afterOpenBrace tokens ≠ []) :
    ∃ header opening, tokens = header ++ opening :: afterOpenBrace tokens ∧
      (∀ t ∈ header, t.text ≠ openBrace) ∧ opening.text = openBrace := by
  rw [afterOpenBrace] at more ⊢
  have whole := List.takeWhile_append_dropWhile (p := fun t : Token => t.text != openBrace)
    (l := tokens)
  cases dropped : tokens.dropWhile fun t => t.text != openBrace with
  | nil => exact absurd (congrArg List.tail dropped) more
  | cons opening body =>
      rw [dropped] at whole
      refine ⟨_, opening, whole.symm, ?_, ?_⟩
      · intro t mem
        simpa using List.mem_takeWhile_imp mem
      · have stops := List.head?_dropWhile_not (fun t : Token => t.text != openBrace) tokens
        rw [dropped] at stops
        simpa using stops

/-- The tokens of a body that is not empty stand behind the declaration and its opening brace. -/
theorem exists_opens {tokens rest : List Token} {head : ClassHead}
    (found : findHead [] (significant tokens) = some (head, rest))
    (more : afterOpenBrace rest ≠ []) :
    ∃ front, tokens.filter (!·.isTrivia) = front ++ afterOpenBrace rest ∧
      Opens head tokens front := by
  obtain ⟨before, keyword, name, after, split, form, isName, text, line, place, ahead⟩ :=
    exists_of_findHead_eq_some found
  obtain ⟨header, opening, whole, plain, opens⟩ := exists_of_afterOpenBrace more
  have offset : tokens[head.offset]? = some name.token := by
    rw [← place]
    exact getElem?_of_mem_significant (by simp [split])
  refine ⟨before.map (·.token) ++ keyword.token :: name.token :: header ++ [opening], ?_, ?_⟩
  · calc tokens.filter (!·.isTrivia)
        = (significant tokens).map (·.token) := (map_token_significantFrom 0 tokens).symm
      _ = before.map (·.token) ++ keyword.token :: name.token :: rest := by
          rw [split, List.map_append, List.map_cons, List.map_cons, ahead]
      _ = before.map (·.token) ++ keyword.token :: name.token ::
            (header ++ opening :: afterOpenBrace rest) := by rw [← whole]
      _ = before.map (·.token) ++ keyword.token :: name.token :: header ++ [opening] ++
            afterOpenBrace rest := by simp
  · exact ⟨before.map (·.token), keyword.token, name.token, header, opening, rfl, form, isName,
      text, line, offset, plain, opens⟩

/-- Whatever the tokens are, the methods that are read stand at increasing places in the body of the
class that is read. -/
theorem methods_declaredFrom (visibility : String) (tokens : List Token) :
    ∃ front body places, tokens.filter (!·.isTrivia) = front ++ body ∧
      DeclaredFrom visibility body 0 places (read visibility tokens).methods ∧
      ∀ m ∈ (read visibility tokens).methods, ∃ head,
        (read visibility tokens).head = some head ∧ Opens head tokens front := by
  cases found : findHead [] (significant tokens) with
  | none =>
      have read : read visibility tokens = ⟨none, []⟩ := by rw [ClassShape.read, found]
      rw [read]
      exact ⟨_, [], [], (List.append_nil _).symm, DeclaredFrom.nil, List.forall_mem_nil _⟩
  | some p =>
      obtain ⟨head, rest⟩ := p
      have read : read visibility tokens =
          ⟨some head, methodsFrom visibility [] (afterOpenBrace rest)⟩ := by
        rw [ClassShape.read, found]
      obtain ⟨places, declared⟩ := exists_declaredFrom visibility [] (afterOpenBrace rest)
      rw [read]
      by_cases more : afterOpenBrace rest = []
      · rw [more] at declared ⊢
        exact ⟨_, [], places, (List.append_nil _).symm, declared, by simp [methodsFrom]⟩
      · obtain ⟨front, split, opens⟩ := exists_opens found more
        exact ⟨front, _, places, split, declared, fun m _ => ⟨head, rfl, opens⟩⟩

end ClassShape

end RenderTrace
