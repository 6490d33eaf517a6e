import Mathlib.Data.List.Basic
import Mathlib.Data.List.TakeWhile
import RenderTrace.Proofs.ClassShape.Methods

/-!
# Reading a class back

Reading is the inverse of writing: a class that was written, with any comments and
white space between its tokens, is read with its name, form, abstractness and
methods. The members are read one after another, and each leaves what was passed in
a state where no modifier is waiting for a later keyword.

## Implementation notes

The reader looks back for modifiers over the tokens it has passed, latest first. The
invariant of the scan is that the latest of them is no modifier, so that the
modifiers found at a keyword are those written before it.

-/

namespace RenderTrace
open Token

namespace ClassShape

/-- A modifier has none of the other kinds. -/
theorem kind_ne_of_isModifier {t : Token} (kind : Kind) (modifier : t.isModifier)
    (other : kind.isModifier = false) : t.kind ≠ kind := by
  intro equal
  rw [isModifier, equal, other] at modifier
  exact Bool.false_ne_true modifier

/-- The latest token that was passed is no modifier. -/
def IsSettled (seen : List Token) : Prop :=
  ∀ t ∈ seen.head?, !t.isModifier

theorem isSettled_nil : IsSettled [] :=
  fun _ head => absurd head (by simp)

theorem passed_append (ts rest : List Token) : passed (ts ++ rest) rest = ts.reverse := by
  have length : (ts ++ rest).length - rest.length = ts.length := by
    rw [List.length_append]
    omega
  rw [passed, length, List.take_left]

/-- Tokens that were passed before have no part in the modifiers found later. -/
theorem modifiersBefore_of_isSettled {seen passed : List Token} (settled : IsSettled passed) :
    modifiersBefore (seen ++ passed) = modifiersBefore seen := by
  have none : passed.takeWhile (·.isModifier) = [] := by
    cases passed with
    | nil => rfl
    | cons t passed =>
        have plain : t.isModifier = false := by simpa using settled t rfl
        rw [List.takeWhile_cons, plain, if_neg Bool.false_ne_true]
  rw [modifiersBefore, modifiersBefore, List.takeWhile_append]
  split
  next all =>
    have same := (List.takeWhile_prefix (p := fun t : Token => t.isModifier)).eq_of_length all
    rw [none, List.append_nil, same]
  · rfl

/-- The modifiers before a place are those that were passed last. -/
theorem modifiersBefore_append {modifiers seen : List Token}
    (areModifiers : ∀ t ∈ modifiers, t.isModifier) (settled : IsSettled seen) :
    modifiersBefore (modifiers.reverse ++ seen) = modifiers := by
  have all : modifiers.reverse.takeWhile (·.isModifier) = modifiers.reverse :=
    List.takeWhile_eq_self_iff.mpr fun t mem => areModifiers t (List.mem_reverse.mp mem)
  rw [modifiersBefore_of_isSettled settled, modifiersBefore, all, List.reverse_reverse]

/-! ## Members -/

variable {visibility : String} {seen : List Token}

/-- A token that is no brace and no keyword is passed. -/
theorem methodsFrom_plain {t : Token} (rest : List Token) (brace : !t.isBrace)
    (kind : t.kind ≠ .function) :
    methodsFrom visibility seen (t :: rest) = methodsFrom visibility (t :: seen) rest := by
  obtain ⟨opening, closing⟩ := ne_brace_of_not_isBrace brace
  rw [methodsFrom, if_neg closing, if_neg opening, if_neg kind]

/-- At a keyword a method is read, and reading goes on where that stopped. -/
theorem methodsFrom_function {t : Token} {rest after : List Token} {m? : Option Method}
    (brace : !t.isBrace) (kind : t.kind = .function)
    (read : Method.read visibility (modifiersBefore seen) rest = (m?, after)) :
    methodsFrom visibility seen (t :: rest) =
      m?.toList ++ methodsFrom visibility (passed (t :: rest) after ++ seen) after := by
  obtain ⟨opening, closing⟩ := ne_brace_of_not_isBrace brace
  rw [methodsFrom, if_neg closing, if_neg opening, if_pos kind]
  simp only [read]

theorem methodsFrom_modifiers {modifiers : List Token} (rest : List Token)
    (areModifiers : ∀ t ∈ modifiers, t.isModifier ∧ !t.isBrace) :
    methodsFrom visibility seen (modifiers ++ rest) =
      methodsFrom visibility (modifiers.reverse ++ seen) rest := by
  induction modifiers generalizing seen with
  | nil => rfl
  | cons t modifiers ih =>
      obtain ⟨modifier, brace⟩ := areModifiers t List.mem_cons_self
      have kind := kind_ne_of_isModifier .function modifier rfl
      rw [List.cons_append, methodsFrom_plain _ brace kind,
        ih fun u mem => areModifiers u (List.mem_cons_of_mem _ mem), List.reverse_cons,
        List.append_assoc, List.singleton_append]

/-- What is declared by modifiers, the keyword and the tokens that are read after it is a method, and
all its tokens are passed. -/
theorem methodsFrom_declared {modifiers head : List Token} {keyword : Token} {m : Method}
    (rest : List Token) (areModifiers : ∀ t ∈ modifiers, t.isModifier ∧ !t.isBrace)
    (isFunction : keyword.kind = .function ∧ !keyword.isBrace) (settled : IsSettled seen)
    (read : Method.read visibility modifiers (head ++ rest) = (some m, rest)) :
    methodsFrom visibility seen (modifiers ++ keyword :: head ++ rest) =
      m :: methodsFrom visibility ((modifiers ++ keyword :: head).reverse ++ seen) rest := by
  obtain ⟨kind, brace⟩ := isFunction
  have before := modifiersBefore_append (fun t mem => (areModifiers t mem).1) settled
  rw [← before] at read
  have passed : passed (keyword :: (head ++ rest)) rest = (keyword :: head).reverse :=
    passed_append (keyword :: head) rest
  rw [List.append_assoc, methodsFrom_modifiers _ areModifiers, List.cons_append,
    methodsFrom_function brace kind read, passed, List.reverse_append, List.append_assoc]
  rfl

/-- Tokens that declare no method are passed. -/
theorem methodsFrom_aside {content : List Token} (rest : List Token) (aside : isAside content) :
    methodsFrom visibility seen (content ++ rest) =
      methodsFrom visibility (content.reverse ++ seen) rest := by
  -- A block is passed as a whole, so the induction is on the number of tokens.
  induction length : content.length using Nat.strongRecOn generalizing content seen with
  | ind n ih =>
      cases content with
      | nil => rfl
      | cons t ts =>
          rw [isAside, asideFrom] at aside
          split at aside
          next opens =>
            have text : t.text = openBrace := by simpa [opensBrace] using opens
            have other : openBrace ≠ closeBrace := by decide
            obtain ⟨inner, later, rfl, aside, after⟩ := exists_afterClose_of_aside aside
            have block : afterBlock (t :: (inner ++ later) ++ rest) = later ++ rest := after rest
            have passed : passed (t :: (inner ++ later) ++ rest) (later ++ rest) =
                (t :: inner).reverse := by
              have split := passed_append (t :: inner) (later ++ rest)
              rwa [List.cons_append, ← List.append_assoc] at split
            rw [List.cons_append] at block passed ⊢
            have shorter : later.length < n := by
              rw [← length, List.length_cons, List.length_append]
              omega
            rw [methodsFrom, text, if_neg other, if_pos rfl, block, passed,
              ih later.length shorter aside rfl]
            simp
          next opens =>
            split at aside
            · exact absurd aside (by simp)
            next closes =>
              obtain ⟨keyword, aside⟩ := Bool.and_eq_true_iff.mp aside
              have brace : !t.isBrace := by simp [isBrace, opens, closes]
              have kind : t.kind ≠ .function := by simpa [declaresAt] using keyword
              rw [List.cons_append, methodsFrom_plain _ brace kind,
                ih ts.length (by simp [← length]) aside rfl, List.reverse_cons,
                List.append_assoc, List.singleton_append]

/-! ## Tokens that declare methods -/

/-- Wherever no modifier is waiting the tokens are passed as a whole, give these methods and leave
no modifier waiting. -/
def Declares (visibility : String) (tokens : List Token) (methods : List Method) : Prop :=
  ∀ seen, IsSettled seen → IsSettled (tokens.reverse ++ seen) ∧
    ∀ rest, methodsFrom visibility seen (tokens ++ rest) =
      methods ++ methodsFrom visibility (tokens.reverse ++ seen) rest

theorem declares_nil : Declares visibility [] [] :=
  fun _ settled => ⟨settled, fun _ => rfl⟩

/-- What stands one after the other declares the methods of both. -/
theorem Declares.append {a b : List Token} {ms ns : List Method} (first : Declares visibility a ms)
    (second : Declares visibility b ns) : Declares visibility (a ++ b) (ms ++ ns) := by
  intro seen settled
  obtain ⟨between, readFirst⟩ := first seen settled
  obtain ⟨after, readSecond⟩ := second _ between
  rw [List.reverse_append, List.append_assoc]
  refine ⟨after, ?_⟩
  intro rest
  rw [List.append_assoc, readFirst, readSecond, List.append_assoc]

theorem Declares.flatMap {α : Type} {f : α → List Token} {g : α → List Method} (as : List α)
    (each : ∀ a, Declares visibility (f a) (g a)) :
    Declares visibility (as.flatMap f) (as.flatMap g) := by
  induction as with
  | nil => exact declares_nil
  | cons a as ih =>
      rw [List.flatMap_cons, List.flatMap_cons]
      exact (each a).append ih

/-- What stands before the closing brace of the class gives its methods, and no more are read. -/
theorem Declares.closed {tokens : List Token} {methods : List Method}
    (declared : Declares visibility tokens methods) (closeLine : Int) (rest : List Token)
    (settled : IsSettled seen) :
    methodsFrom visibility seen (tokens ++ mark closeBrace closeLine :: rest) = methods := by
  rw [(declared seen settled).2, methodsFrom, text_mark, if_pos rfl, List.append_nil]

/-- No modifier is left waiting after a body. -/
theorem isSettled_body (b : WrittenBody) (before seen : List Token) :
    IsSettled ((before ++ b.tokens).reverse ++ seen) := by
  obtain ⟨t, front, equal, plain⟩ := b.exists_last
  intro u head
  rw [equal, ← List.append_assoc, List.reverse_append] at head
  obtain rfl : t = u := Option.some.inj head
  exact plain

/-- Modifiers, the keyword and what is read after it up to the end of a body declare one method. -/
theorem declares_method {modifiers front : List Token} {keyword : Token} {m : Method}
    (b : WrittenBody) (areModifiers : ∀ t ∈ modifiers, t.isModifier ∧ !t.isBrace)
    (isFunction : keyword.kind = .function ∧ !keyword.isBrace)
    (read : ∀ rest, Method.read visibility modifiers (front ++ b.tokens ++ rest) = (some m, rest)) :
    Declares visibility (modifiers ++ keyword :: (front ++ b.tokens)) [m] := by
  intro seen settled
  constructor
  · have split : modifiers ++ keyword :: (front ++ b.tokens) =
        modifiers ++ keyword :: front ++ b.tokens := by simp
    rw [split]
    exact isSettled_body b _ seen
  · intro rest
    exact methodsFrom_declared rest areModifiers isFunction settled (read rest)

end ClassShape

open ClassShape

variable {visibility : String} {seen : List Token}

theorem WrittenMember.declares_tokens (member : WrittenMember) :
    Declares visibility member.tokens (member.method?.map (·.shape visibility)).toList := by
  cases member with
  | method m =>
      exact declares_method m.body m.modifiers_areModifiers m.keyword_isFunction
        (m.read_headTokens visibility)
  | other content aside ends =>
      intro seen settled
      constructor
      · intro t head
        rw [WrittenMember.tokens, List.head?_append, List.head?_reverse] at head
        rcases Option.or_eq_some_iff.mp head with last | ⟨_, before⟩
        · exact ends t last
        · exact settled t before
      · intro rest
        exact methodsFrom_aside rest aside

/-- Members declare their methods, one after another. -/
theorem declares_members (visibility : String) (members : List WrittenMember) :
    Declares visibility (members.flatMap (·.tokens))
      ((members.filterMap (·.method?)).map (·.shape visibility)) := by
  have methods : (members.filterMap (·.method?)).map (·.shape visibility) =
      members.flatMap fun member => (member.method?.map (·.shape visibility)).toList := by
    rw [List.map_filterMap, List.filterMap_eq_flatMap_toList]
  rw [methods]
  exact Declares.flatMap members (·.declares_tokens)

/-- The members of a body are read one after another, up to its closing brace. -/
theorem methodsFrom_members (members : List WrittenMember) (closeLine : Int) (rest : List Token)
    (settled : IsSettled seen) :
    methodsFrom visibility seen
      (members.flatMap (·.tokens) ++ mark closeBrace closeLine :: rest) =
        (members.filterMap (·.method?)).map (·.shape visibility) :=
  (declares_members visibility members).closed closeLine rest settled

/-! ## The declaration -/

namespace ClassShape

/-- The tokens that carry meaning, with their places in a list they are a part of. -/
def significantFrom (start : Nat) (tokens : List Token) : List Placed :=
  ((tokens.zipIdx start).filter fun p => !p.1.isTrivia).map fun p => ⟨p.1, p.2⟩

theorem map_token_significantFrom (start : Nat) (tokens : List Token) :
    (significantFrom start tokens).map (·.token) = tokens.filter (!·.isTrivia) := by
  have unplaced := List.filter_map (f := Prod.fst) (p := fun t : Token => !t.isTrivia)
    (l := tokens.zipIdx start)
  rw [List.zipIdx_map_fst] at unplaced
  rw [unplaced, significantFrom, List.map_map]
  rfl

/-- A token that carries meaning has its place. -/
theorem significant_append_cons (before after : List Token) {t : Token} (plain : !t.isTrivia) :
    significant (before ++ t :: after) = significantFrom 0 before ++
      ⟨t, before.length⟩ :: significantFrom (before.length + 1) after := by
  rw [significant, List.zipIdx_append, List.zipIdx_cons, Nat.zero_add, List.filter_append,
    List.filter_cons, if_pos plain, List.map_append, List.map_cons]
  rfl

/-- Form keywords among the tokens declare nothing, as each stands after `::` or `new`; `last?` is
the token before. -/
def formsAside (last? : Option Token) : List Token → Bool
  | [] => true
  | t :: rest =>
    (!(t.kind matches .form _) || last?.any blocksDeclaration) && formsAside (some t) rest

/-- Tokens that may stand before a class, such as attributes. -/
def isLeadIn (tokens : List Token) : Bool :=
  formsAside none tokens && tokens.getLast?.all fun t => !t.isModifier && !blocksDeclaration t

theorem formsAside_of_no_form {tokens : List Token} {last? : Option Token}
    (plain : ∀ t ∈ tokens, !(t.kind matches .form _)) : formsAside last? tokens := by
  induction tokens generalizing last? with
  | nil => rfl
  | cons t rest ih =>
      obtain ⟨plain, later⟩ := List.forall_mem_cons.mp plain
      rw [formsAside, plain, ih later]
      rfl

theorem isLeadIn_of_no_form {tokens : List Token}
    (plain : ∀ t ∈ tokens, !(t.kind matches .form _))
    (ends : ∀ t ∈ tokens.getLast?, !t.isModifier ∧ !blocksDeclaration t) : isLeadIn tokens := by
  rw [isLeadIn, formsAside_of_no_form plain, Bool.true_and, Option.all_eq_true]
  intro t last
  exact Bool.and_eq_true_iff.mpr (ends t last)

theorem formsAside_of_isModifier {tokens : List Token} {last? : Option Token}
    (areModifiers : ∀ t ∈ tokens, t.isModifier) : formsAside last? tokens := by
  apply formsAside_of_no_form
  intro t mem
  split
  next form kind => exact absurd kind (kind_ne_of_isModifier _ (areModifiers t mem) rfl)
  · rfl

/-- Tokens whose form keywords declare nothing are passed in the search for a class. -/
theorem findHead_aside {aside rest : List Placed} {seen : List Token} (more : rest ≠ [])
    (forms : formsAside seen.head? (aside.map (·.token))) :
    findHead seen (aside ++ rest) = findHead ((aside.map (·.token)).reverse ++ seen) rest := by
  induction aside generalizing seen with
  | nil => rfl
  | cons p aside ih =>
      rw [List.map_cons, formsAside, Bool.and_eq_true] at forms
      obtain ⟨q, behind, equal⟩ : ∃ q behind, aside ++ rest = q :: behind :=
        List.exists_cons_of_ne_nil (by simp [more])
      have step : findHead seen (p :: q :: behind) = findHead (p.token :: seen) (q :: behind) := by
        rw [findHead]
        split
        next form kind =>
          have blocked : seen.head?.any blocksDeclaration = true := by
            simpa [kind] using forms.1
          rw [blocked]
          rfl
        · rfl
      have passed : findHead (p.token :: seen) (aside ++ rest) =
          findHead ((aside.map (·.token)).reverse ++ p.token :: seen) rest := ih forms.2
      rw [List.cons_append, equal, step, ← equal, passed, List.map_cons, List.reverse_cons,
        List.append_assoc, List.singleton_append]

/-- A declaration is found at a keyword with a name behind it. -/
theorem exists_of_findHead_eq_some {seen rest : List Token} {placed : List Placed}
    {head : ClassHead} (found : findHead seen placed = some (head, rest)) :
    ∃ before keyword name after, placed = before ++ keyword :: name :: after ∧
      keyword.token.kind = .form head.form ∧ name.token.kind = .name ∧
      name.token.text = head.name ∧ name.token.line = head.line ∧ name.place = head.offset ∧
      rest = after.map (·.token) := by
  fun_induction findHead seen placed with
  | case1 seen p q placed form kind named =>
      obtain ⟨rfl, rfl⟩ := Prod.mk.inj (Option.some.inj found)
      obtain ⟨_, name⟩ := Bool.and_eq_true_iff.mp named
      exact ⟨[], p, q, placed, rfl, kind, beq_iff_eq.mp name, rfl, rfl, rfl, rfl⟩
  | case2 seen p q placed form kind blocked ih =>
      obtain ⟨before, keyword, name, after, split, declared⟩ := ih found
      exact ⟨p :: before, keyword, name, after, congrArg (p :: ·) split, declared⟩
  | case3 seen p q placed other ih =>
      obtain ⟨before, keyword, name, after, split, declared⟩ := ih found
      exact ⟨p :: before, keyword, name, after, congrArg (p :: ·) split, declared⟩
  | case4 => exact absurd found (by simp)

end ClassShape

namespace WrittenClass

variable (c : WrittenClass)

/-- What is read from a class whose name stands at the given place. -/
def shape (visibility : String) (offset : Nat) : ClassShape where
  head := some ⟨c.name.text, offset, c.name.line, c.form, c.isAbstract⟩
  methods := c.methods visibility

/-- The tokens after the name. -/
def afterName : List Token :=
  c.header ++ mark openBrace c.openLine :: c.members.flatMap (·.tokens) ++
    [mark closeBrace c.closeLine]

/-- The class is found after tokens that neither end in a modifier nor keep it from being
declared. -/
theorem findHead_declared {seen : List Token} {modifiers : List Placed} {keyword : Placed}
    (offset : Nat) (rest : List Placed) (settled : IsSettled seen)
    (unblocked : ∀ t ∈ seen.head?, !blocksDeclaration t)
    (before : modifiers.map (·.token) = c.modifiers) (form : keyword.token = c.keyword) :
    findHead seen (modifiers ++ keyword :: ⟨c.name, offset⟩ :: rest) =
      some (⟨c.name.text, offset, c.name.line, c.form, c.isAbstract⟩, rest.map (·.token)) := by
  have areModifiers : ∀ t ∈ modifiers.map (·.token), t.isModifier := by
    rw [before]
    exact c.modifiers_areModifiers
  have abstracts := modifiersBefore_append c.modifiers_areModifiers settled
  have free : (c.modifiers.reverse ++ seen).head?.any blocksDeclaration = false := by
    rw [Option.any_eq_false]
    intro t head
    rcases Option.or_eq_some_iff.mp (List.head?_append ▸ head) with last | ⟨_, last⟩
    · have mem : t ∈ c.modifiers := List.mem_reverse.mp (List.mem_of_mem_head? last)
      have modifier := c.modifiers_areModifiers t mem
      have colon := kind_ne_of_isModifier .doubleColon modifier rfl
      have new := kind_ne_of_isModifier .new modifier rfl
      simp [blocksDeclaration, colon, new]
    · simpa using unblocked t last
  have name : (c.name.kind == .name) = true := by simp [c.name_isName]
  rw [findHead_aside (List.cons_ne_nil _ _) (formsAside_of_isModifier areModifiers), before,
    findHead, form, c.keyword_isForm]
  simp only [free, name, abstracts]
  rfl

theorem findHead_placed {modifiers : List Placed} {keyword : Placed} (offset : Nat)
    (rest : List Placed)
    (before : modifiers.map (·.token) = c.modifiers) (form : keyword.token = c.keyword) :
    findHead [] (modifiers ++ keyword :: ⟨c.name, offset⟩ :: rest) =
      some (⟨c.name.text, offset, c.name.line, c.form, c.isAbstract⟩, rest.map (·.token)) :=
  c.findHead_declared offset rest isSettled_nil (fun _ head => absurd head (by simp)) before form

theorem afterOpenBrace_header {opening : Token} (body : List Token)
    (opens : opening.text = openBrace) : afterOpenBrace (c.header ++ opening :: body) = body := by
  have header : ∀ t ∈ c.header, t.text != openBrace := by
    intro t mem
    simpa [opensBrace] using c.header_isOpen t mem
  rw [afterOpenBrace, List.dropWhile_append_of_pos header, List.dropWhile_cons, opens]
  rfl

theorem afterOpenBrace_afterName (rest : List Token) :
    afterOpenBrace (c.afterName ++ rest) =
      c.members.flatMap (·.tokens) ++ mark closeBrace c.closeLine :: rest := by
  have split : c.afterName ++ rest = c.header ++ mark openBrace c.openLine ::
      (c.members.flatMap (·.tokens) ++ mark closeBrace c.closeLine :: rest) := by
    simp [afterName]
  rw [split, c.afterOpenBrace_header _ rfl]

/-- Whatever stands before the class and in its body, the head of the class is read, and the methods
of the body. -/
theorem exists_read_opened (visibility : String) {leadIn tokens body : List Token}
    {opening : Token} (aside : isLeadIn leadIn) (opens : opening.text = openBrace)
    (written : tokens.filter (!·.isTrivia) = leadIn ++ (c.modifiers ++ c.keyword :: c.name ::
      c.header ++ opening :: body)) :
    ∃ offset, ClassShape.read visibility tokens =
      ⟨some ⟨c.name.text, offset, c.name.line, c.form, c.isAbstract⟩,
        methodsFrom visibility [] body⟩ := by
  obtain ⟨forms, ends⟩ := Bool.and_eq_true_iff.mp aside
  rw [← map_token_significantFrom 0, List.append_assoc] at written
  obtain ⟨front, whole, placed, ahead, started⟩ := List.map_eq_append_iff.mp written
  obtain ⟨modifiers, declared, rfl, before, behind⟩ := List.map_eq_append_iff.mp started
  obtain ⟨keyword, named, rfl, form, behindForm⟩ := List.map_eq_cons_iff.mp behind
  obtain ⟨name, rest, rfl, isName, behindName⟩ := List.map_eq_cons_iff.mp behindForm
  obtain ⟨token, offset⟩ := name
  obtain rfl : token = c.name := isName
  have significant : significant tokens =
      front ++ (modifiers ++ keyword :: ⟨c.name, offset⟩ :: rest) := placed
  have last : ∀ t ∈ leadIn.reverse.head?, !t.isModifier ∧ !blocksDeclaration t := by
    intro t head
    have last : leadIn.getLast? = some t := List.head?_reverse ▸ head
    rw [last] at ends
    simpa using ends
  refine ⟨offset, ?_⟩
  rw [ClassShape.read, significant, findHead_aside (by simp) (ahead ▸ forms), ahead,
    List.append_nil, c.findHead_declared offset rest (fun t head => (last t head).1)
      (fun t head => (last t head).2) before form, behindName]
  exact congrArg (fun body => ClassShape.mk _ (methodsFrom visibility [] body))
    (c.afterOpenBrace_header body opens)

/-- Reading undoes writing: where a class is written, with comments and white space between its
tokens and anything after it, that class is read, and its offset is the place of its name. -/
theorem read_written (visibility : String) {tokens rest : List Token}
    (written : tokens.filter (!·.isTrivia) = c.tokens ++ rest) :
    ∃ before after, tokens = before ++ c.name :: after ∧
      before.filter (!·.isTrivia) = c.modifiers ++ [c.keyword] ∧
      ClassShape.read visibility tokens = c.shape visibility before.length := by
  have split : c.tokens ++ rest =
      (c.modifiers ++ [c.keyword]) ++ c.name :: (c.afterName ++ rest) := by
    simp [WrittenClass.tokens, afterName]
  rw [split] at written
  obtain ⟨front, back, rfl, start, named⟩ := List.filter_eq_append_iff.mp written
  obtain ⟨gap, after, rfl, trivia, plain, stop⟩ := List.filter_eq_cons_iff.mp named
  have before : (front ++ gap).filter (!·.isTrivia) = c.modifiers ++ [c.keyword] := by
    rw [List.filter_append, start, List.filter_eq_nil_iff.mpr trivia, List.append_nil]
  refine ⟨front ++ gap, after, (List.append_assoc _ _ _).symm, before, ?_⟩
  rw [← map_token_significantFrom 0] at before
  obtain ⟨modifiers, last, placed, modifiers_eq, last_eq⟩ := List.map_eq_append_iff.mp before
  obtain ⟨keyword, rfl, keyword_eq⟩ := List.map_eq_singleton_iff.mp last_eq
  have found := c.findHead_placed (front ++ gap).length
    (significantFrom ((front ++ gap).length + 1) after) modifiers_eq keyword_eq
  rw [map_token_significantFrom, stop] at found
  rw [← List.append_assoc, ClassShape.read, significant_append_cons _ _ plain, placed,
    List.append_assoc, List.singleton_append, found]
  simp only [afterOpenBrace_afterName]
  rw [methodsFrom_members c.members c.closeLine rest (fun t head => absurd head (by simp))]
  rfl

end WrittenClass

/-- A parameter with a nullable type and a default that holds brackets and a comma. -/
def sideParameter : WrittenParameter where
  decorations := []
  nullable := some 4
  type := [⟨.name, "int", 4⟩]
  reference := none
  variadic := none
  name := ⟨.var, "$side", 4⟩
  default := some (4, [⟨.name, "max", 4⟩, mark "(" 4, ⟨.number, "1", 4⟩, mark "," 4, mark "[" 4,
    ⟨.number, "2", 4⟩, mark "]" 4, mark ")" 4])
  type_isContained := by decide
  type_isTypeWord := by decide
  variadic_isWord := by simp
  name_isWord := by decide
  default_isContained := by decide

/-- A parameter with an attribute, a modifier, an ampersand and dots. -/
def restParameter : WrittenParameter where
  decorations := [.attributes 5 [⟨.name, "Given", 5⟩, mark "[" 5, mark "]" 5] 5 rfl rfl,
    .modifier ⟨.modifier .readonly, "readonly", 5⟩ rfl rfl]
  nullable := none
  type := [⟨.name, "array", 5⟩]
  reference := some 5
  variadic := some ⟨.ellipsis, "...", 5⟩
  name := ⟨.var, "$rest", 5⟩
  default := none
  type_isContained := by decide
  type_isTypeWord := by decide
  variadic_isWord := by decide
  name_isWord := by decide
  default_isContained := by simp

/-- A method without a body that returns a reference. -/
def areaMethod : WrittenMethod where
  modifiers := [⟨.modifier (.visibility .publicAccess), "public", 4⟩,
    ⟨.modifier (.visibility .protectedAccess), "Protected", 4⟩, ⟨.modifier .static, "static", 4⟩]
  keyword := ⟨.function, "function", 4⟩
  reference := some 4
  name := ⟨.name, "area", 4⟩
  openLine := 4
  followed := [(sideParameter, 4), (restParameter, 5)]
  last := none
  closeLine := 6
  returnType := some
    { colonLine := 6
      nullable := some 6
      words := [⟨.name, "Number", 6⟩]
      words_ne_nil := by decide
      words_arePart := by decide
      head_isWord := by decide }
  body := .semicolon 6
  modifiers_areModifiers := by decide
  keyword_isFunction := by decide
  name_isName := by decide

/-- A method whose body holds a closure. -/
def drawMethod : WrittenMethod where
  modifiers := []
  keyword := ⟨.function, "function", 8⟩
  reference := none
  name := ⟨.name, "draw", 8⟩
  openLine := 8
  followed := []
  last := none
  closeLine := 8
  returnType := none
  body := .block 8 [⟨.function, "function", 9⟩, mark "(" 9, mark ")" 9, mark openBrace 9,
    mark closeBrace 9] 10 rfl
  modifiers_areModifiers := areMethodModifiers_nil
  keyword_isFunction := by decide
  name_isName := by decide

/-- An abstract class with a trait and two methods. -/
def figureClass : WrittenClass where
  modifiers := [⟨.modifier .abstract, "abstract", 1⟩]
  form := .classForm
  keyword := ⟨.form .classForm, "class", 1⟩
  name := ⟨.name, "Figure", 1⟩
  header := [⟨.name, "extends", 1⟩, ⟨.name, "Base", 1⟩]
  openLine := 2
  members := [.other [⟨.name, "use", 3⟩, ⟨.name, "Drawn", 3⟩, mark openBrace 3,
      ⟨.function, "function", 3⟩, mark closeBrace 3] rfl (by decide),
    .method areaMethod, .method drawMethod]
  closeLine := 11
  modifiers_areModifiers := by decide
  keyword_isForm := rfl
  name_isName := rfl
  header_isOpen := by decide

/-- The abstract class with blanks between its tokens, a comment before and a word after it. -/
def figureSource : List Token :=
  ⟨.comment, "// figures", 0⟩ :: (figureClass.tokens.flatMap
    fun t => [t, ⟨.whitespace, " ", t.line⟩]) ++ [⟨.name, "more", 12⟩]

theorem WrittenClass.read_written_figureClass :
    figureSource.filter (!·.isTrivia) = figureClass.tokens ++ [⟨.name, "more", 12⟩] ∧
      ∃ before after, figureSource = before ++ figureClass.name :: after ∧
        before.filter (!·.isTrivia) = figureClass.modifiers ++ [figureClass.keyword] ∧
        ClassShape.read "public" figureSource = figureClass.shape "public" before.length := by
  have written : figureSource.filter (!·.isTrivia) =
      figureClass.tokens ++ [⟨.name, "more", 12⟩] := by decide
  exact ⟨written, figureClass.read_written "public" written⟩

example : (figureClass.methods "public").map (fun m => (m.visibility, m.isAbstract)) =
    [("protected", true), ("public", false)] := by decide

end RenderTrace
