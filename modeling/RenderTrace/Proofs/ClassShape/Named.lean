import RenderTrace.Proofs.ClassShape.Places
import RenderTrace.Proofs.Token.Identifier

/-!
# Classes and methods by their names

What is read as the name of a class or a method is a token of some kind, and tokens that are
spelled alike are of one kind. So where the kinds of all tokens follow from their texts, a
class or a method that is written with an identifier for its name is read under this name
exactly when the identifier is a name.
-/

namespace RenderTrace
open Token ClassShape

/-! ## The tokens behind what is read -/

/-- The name of a method that is read is a token that can be one. -/
theorem Method.exists_name_of_read {visibility : String} {modifiers tokens after : List Token}
    {m : Method} (found : Method.read visibility modifiers tokens = (some m, after)) :
    ∃ t ∈ tokens, t.text = m.name ∧ t.kind.isNeverName = false := by
  obtain ⟨_, _, _, none⟩ | ⟨marks, name, opening, inside, rfl, marked, _, named⟩ :=
    read_cases visibility modifiers tokens
  · rw [none] at found
    exact absurd (congrArg Prod.fst found) (by simp)
  · have read := congrArg Prod.fst (named.symm.trans found)
    obtain rfl := Option.some.inj read
    refine ⟨name, by simp, rfl, ?_⟩
    rw [← Bool.not_eq_true]
    intro never
    have nameless : (Method.read visibility modifiers (marks ++ name :: opening :: inside)).1 =
        none := by
      obtain ⟨rfl, plain⟩ | ⟨t, rfl, ampersand⟩ := marked
      · simp [Method.read, plain, never]
      · simp [Method.read, ampersand, never]
    rw [named] at nameless
    exact absurd nameless (by simp)

namespace ClassShape

theorem exists_name_of_mem_methodsFrom {visibility : String} {seen tokens : List Token} {m : Method}
    (mem : m ∈ methodsFrom visibility seen tokens) :
    ∃ t ∈ tokens, t.text = m.name ∧ t.kind.isNeverName = false := by
  fun_induction methodsFrom visibility seen tokens with
  | case1 => exact absurd mem List.not_mem_nil
  | case2 => exact absurd mem List.not_mem_nil
  | case3 seen t rest notClose opens ih =>
      obtain ⟨name, there, named⟩ := ih mem
      exact ⟨name, (afterBlock_suffix (t :: rest)).subset there, named⟩
  | case4 seen t rest notClose notOpen kind found ih =>
      rcases List.mem_append.mp mem with here | later
      · have read : Method.read visibility (modifiersBefore seen) rest = (some m, found.2) :=
          Prod.ext (Option.mem_toList.mp here) rfl
        obtain ⟨name, there, named⟩ := Method.exists_name_of_read read
        exact ⟨name, List.mem_cons_of_mem t there, named⟩
      · obtain ⟨name, there, named⟩ := ih later
        have behind := (Method.read_suffix visibility (modifiersBefore seen) rest).subset there
        exact ⟨name, List.mem_cons_of_mem t behind, named⟩
  | case5 seen t rest notClose notOpen other ih =>
      obtain ⟨name, there, named⟩ := ih mem
      exact ⟨name, List.mem_cons_of_mem t there, named⟩

/-- The name of a method that is read is a token of the source that can be one. -/
theorem exists_name_of_mem_methods {visibility : String} {tokens : List Token} {m : Method}
    (mem : m ∈ (read visibility tokens).methods) :
    ∃ t ∈ tokens, t.text = m.name ∧ t.kind.isNeverName = false ∧ t.isTrivia = false := by
  rw [read] at mem
  split at mem
  · exact absurd mem List.not_mem_nil
  next head rest found =>
    obtain ⟨name, there, text, named⟩ := exists_name_of_mem_methodsFrom mem
    obtain ⟨before, keyword, last, after, split, _, _, _, _, _, rfl⟩ :=
      exists_of_findHead_eq_some found
    have body : name ∈ after.map (·.token) :=
      (List.dropWhile_suffix _).subset (List.mem_of_mem_tail there)
    have kept : name ∈ tokens.filter (!·.isTrivia) := by
      rw [← map_token_significantFrom 0]
      change name ∈ (significant tokens).map (·.token)
      rw [split]
      simp [body]
    obtain ⟨mem, plain⟩ := List.mem_filter.mp kept
    exact ⟨name, mem, text, named, by simpa using plain⟩

/-- The name of a class that is read is a token of the source of the kind of names. -/
theorem exists_name_of_head {visibility : String} {tokens : List Token} {head : ClassHead}
    (found : (read visibility tokens).head = some head) :
    ∃ t ∈ tokens, t.text = head.name ∧ t.kind = .name := by
  cases placed : findHead [] (significant tokens) with
  | none =>
      rw [read, placed] at found
      exact absurd found (by simp)
  | some p =>
      rw [read, placed] at found
      obtain rfl := Option.some.inj found
      obtain ⟨before, keyword, name, after, split, _, kind, text, _⟩ :=
        exists_of_findHead_eq_some placed
      have mem : name ∈ significant tokens := by simp [split]
      exact ⟨name.token, List.mem_of_getElem? (getElem?_of_mem_significant mem), text, kind⟩

end ClassShape

/-! ## Written names -/

namespace Identifier

/-- The identifier as a name of one part. -/
def name (i : Identifier) : QualifiedName :=
  ⟨false, i, []⟩

def text (i : Identifier) : String :=
  i.name.text

/-- The token of an identifier, its kind told from its text. -/
def token (i : Identifier) (line : Int) : Token :=
  ⟨Kind.ofText "" i.text, i.text, line⟩

theorem text_ne_ampersand (i : Identifier) : i.text ≠ "&" := by
  have other : i.first ≠ '&' := by
    intro same
    have start := i.first_isStart
    rw [same] at start
    exact absurd start (by decide)
  exact QualifiedName.ofList_cons_ne other

end Identifier

/-- An identifier that is no name is white space or of a kind that names nothing. -/
theorem QualifiedName.kind_eq_name {q : QualifiedName} (named : q.kind.isNeverName = false)
    (plain : q.kind.isTrivia = false) : q.kind = .name := by
  rw [kind] at named plain ⊢
  split at named
  next blank =>
    rw [if_pos blank] at plain
    exact absurd plain (by decide)
  next blank =>
    rw [if_neg blank]
    split at named
    · exact absurd named (by decide)
    next digit =>
      rw [if_neg digit]
      split at named
      next within => exact if_pos within
      · exact absurd named (by decide)

/-- The token stands in the list between others, with comments and white space among these. -/
def StandsBetween (tokens before : List Token) (t : Token) (after : List Token) : Prop :=
  ∃ front back, tokens = front ++ t :: back ∧ front.filter (!·.isTrivia) = before ∧
    back.filter (!·.isTrivia) = after

theorem StandsBetween.filter_eq {tokens before after : List Token} {t : Token}
    (stands : StandsBetween tokens before t after) (plain : t.isTrivia = false) :
    tokens.filter (!·.isTrivia) = before ++ t :: after := by
  obtain ⟨front, back, rfl, rfl, rfl⟩ := stands
  rw [List.filter_append, List.filter_cons_of_pos (by rw [plain]; rfl)]

namespace WrittenMethod

/-- The tokens of a method up to its name. -/
def beforeName (m : WrittenMethod) : List Token :=
  m.modifiers ++ m.keyword :: mark? "&" m.reference

/-- The tokens of a method behind its name. -/
def behindName (m : WrittenMethod) : List Token :=
  mark "(" m.openLine :: m.listTokens ++
    mark ")" m.closeLine :: m.returnType.toList.flatMap (·.tokens) ++ m.body.tokens

theorem tokens_eq (m : WrittenMethod) : m.tokens = m.beforeName ++ m.name :: m.behindName := by
  simp [tokens, headTokens, beforeName, behindName]

end WrittenMethod

namespace ClassShape

variable {visibility : String} {tokens : List Token} {i : Identifier} {line : Int}
  (classified : ∀ t ∈ tokens, t.kind = Kind.ofText "" t.text)
  (plain : Kind.keyword? i.text = none)

include plain in
theorem kind_token : (i.token line).kind = i.name.kind := by
  rw [Identifier.token, Identifier.text, i.name.ofText_text plain]

include classified plain in
theorem kind_of_spelled {t : Token} (mem : t ∈ tokens) (spelled : t.text = i.text) :
    t.kind = i.name.kind := by
  rw [classified t mem, spelled]
  exact i.name.ofText_text plain

include classified plain in
/-- A class is read under the identifier it is written with exactly when that is a name. -/
theorem head_name_iff {c : WrittenClass} {rest : List Token}
    (stands : StandsBetween tokens (c.modifiers ++ [c.keyword]) (i.token line)
      (c.afterName ++ rest)) :
    (read visibility tokens).head.map (·.name) = some i.text ↔ i.name.kind = .name := by
  constructor
  · intro found
    obtain ⟨head, found, same⟩ := Option.map_eq_some_iff.mp found
    obtain ⟨t, mem, text, kind⟩ := exists_name_of_head found
    rw [← kind_of_spelled classified plain mem (text.trans same), kind]
  · intro named
    have kind : (i.token line).kind = .name := (kind_token plain).trans named
    let c' : WrittenClass := { c with name := i.token line, name_isName := kind }
    have solid : (i.token line).isTrivia = false := by
      rw [isTrivia, kind]
      rfl
    have written : tokens.filter (!·.isTrivia) = [] ++ (c'.modifiers ++ c'.keyword :: c'.name ::
        c'.header ++ mark openBrace c'.openLine ::
          (c'.members.flatMap (·.tokens) ++ [mark closeBrace c'.closeLine] ++ rest)) := by
      rw [stands.filter_eq solid]
      simp [c', WrittenClass.afterName]
    obtain ⟨offset, found⟩ := c'.exists_read_opened visibility (by decide) rfl written
    rw [found]
    rfl

include classified plain in
/-- A method is read under the identifier it is written with exactly when that is a name. -/
theorem method_name_iff {c : WrittenClass} {m : WrittenMethod} {before after : List WrittenMember}
    {rest : List Token}
    (stands : StandsBetween tokens
      (c.modifiers ++ c.keyword :: c.name :: c.header ++
        mark openBrace c.openLine :: before.flatMap (·.tokens) ++ m.beforeName)
      (i.token line)
      (m.behindName ++ after.flatMap (·.tokens) ++ mark closeBrace c.closeLine :: rest)) :
    (∃ found ∈ (read visibility tokens).methods, found.name = i.text) ↔ i.name.kind = .name := by
  constructor
  · rintro ⟨found, mem, same⟩
    obtain ⟨t, there, text, named, solid⟩ := exists_name_of_mem_methods mem
    have kind := kind_of_spelled classified plain there (text.trans same)
    rw [kind] at named
    rw [isTrivia, kind] at solid
    exact QualifiedName.kind_eq_name named solid
  · intro named
    have kind : (i.token line).kind = .name := (kind_token plain).trans named
    have solid : (i.token line).isTrivia = false := by
      rw [isTrivia, kind]
      rfl
    let m' : WrittenMethod :=
      { m with
        name := i.token line
        name_isName := ⟨by rw [kind]; rfl, i.text_ne_ampersand⟩ }
    let members := before ++ .method m' :: after
    have written : tokens.filter (!·.isTrivia) = [] ++ (c.modifiers ++ c.keyword :: c.name ::
        c.header ++ mark openBrace c.openLine ::
          (members.flatMap (·.tokens) ++ mark closeBrace c.closeLine :: rest)) := by
      have tokens : (WrittenMember.method m').tokens =
          m.beforeName ++ i.token line :: m.behindName := m'.tokens_eq
      rw [stands.filter_eq solid, List.flatMap_append, List.flatMap_cons, tokens]
      simp
    obtain ⟨offset, found⟩ := c.exists_read_opened visibility (by decide) rfl written
    rw [found, methodsFrom_members members c.closeLine rest isSettled_nil]
    refine ⟨m'.shape visibility, ?_, rfl⟩
    apply List.mem_map_of_mem
    rw [List.mem_filterMap]
    exact ⟨_, List.mem_append_right _ List.mem_cons_self, rfl⟩

/-- The kind of a qualified name that is no keyword is told by its blanks, its first digit and the
pattern of names. Where the kinds of all tokens follow from their texts, a class that is written
with an identifier for its name is read under it exactly when the identifier is a name, and so is a
method. -/
theorem identifiers_read {q : QualifiedName} (plain : Kind.keyword? q.text = none) :
    Kind.ofText "" q.text = q.kind ∧
    ∀ (i : Identifier) (line : Int) (visibility : String) (tokens : List Token), q = i.name →
      (∀ t ∈ tokens, t.kind = Kind.ofText "" t.text) →
      (∀ (c : WrittenClass) (rest : List Token),
        StandsBetween tokens (c.modifiers ++ [c.keyword]) (i.token line) (c.afterName ++ rest) →
        ((read visibility tokens).head.map (·.name) = some q.text ↔ q.kind = .name)) ∧
      ∀ (c : WrittenClass) (m : WrittenMethod) (before after : List WrittenMember)
        (rest : List Token),
        StandsBetween tokens
          (c.modifiers ++ c.keyword :: c.name :: c.header ++
            mark openBrace c.openLine :: before.flatMap (·.tokens) ++ m.beforeName)
          (i.token line)
          (m.behindName ++ after.flatMap (·.tokens) ++ mark closeBrace c.closeLine :: rest) →
        ((∃ found ∈ (read visibility tokens).methods, found.name = q.text) ↔ q.kind = .name) := by
  refine ⟨q.ofText_text plain, ?_⟩
  rintro i line visibility tokens rfl classified
  exact ⟨fun _ _ stands => head_name_iff classified plain stands,
    fun _ _ _ _ _ stands => method_name_iff classified plain stands⟩

/-- Tokens of one line, their kinds told from their texts. -/
def ofWords (line : Int) (words : List String) : List Token :=
  words.map fun word => ⟨Kind.ofText "" word, word, line⟩

theorem classified_ofWords (line : Int) (words : List String) :
    ∀ t ∈ ofWords line words, t.kind = Kind.ofText "" t.text := by
  intro t mem
  obtain ⟨word, _, rfl⟩ := List.mem_map.mp mem
  rfl

def wide : Identifier :=
  ⟨'宽', ['_', '2'], by decide, by decide⟩

def greatest : Identifier :=
  ⟨'G', ['r', 'ö', 'ß', 't', 'e'], by decide, by decide⟩

/-- A method without parameters. -/
def wideMethod : WrittenMethod where
  modifiers := []
  keyword := ⟨.function, "function", 2⟩
  reference := none
  name := ⟨.name, "宽_2", 2⟩
  openLine := 2
  followed := []
  last := none
  closeLine := 2
  returnType := none
  body := .block 2 [] 2 rfl
  modifiers_areModifiers := areMethodModifiers_nil
  keyword_isFunction := by decide
  name_isName := by decide

/-- A class with one method, both named beyond ASCII. -/
def greatestClass : WrittenClass where
  modifiers := []
  form := .classForm
  keyword := ⟨.form .classForm, "class", 2⟩
  name := ⟨.name, "Größte", 2⟩
  header := []
  openLine := 2
  members := [.method wideMethod]
  closeLine := 2
  modifiers_areModifiers := areModifiers_nil
  keyword_isForm := rfl
  name_isName := rfl
  header_isOpen := noneOpensBrace_nil

theorem identifiers_read_greatestClass :
    let tokens := ofWords 2 ["class", " ", "Größte", "\x7b", "function", "宽_2", "(", ")", "\x7b",
      "\x7d", "\x7d"]
    Kind.ofText "" "\\Größte\\宽_2" = .name ∧
      (read "public" tokens).head.map (·.name) = some "Größte" ∧
      ∃ found ∈ (read "public" tokens).methods, found.name = "宽_2" := by
  intro tokens
  have classified : ∀ t ∈ tokens, t.kind = Kind.ofText "" t.text := classified_ofWords 2 _
  have classStands : StandsBetween tokens
      (greatestClass.modifiers ++ [greatestClass.keyword]) (greatest.token 2)
      (greatestClass.afterName ++ []) :=
    ⟨tokens.take 2, tokens.drop 3, by decide +kernel, by decide +kernel, by decide +kernel⟩
  have methodStands : StandsBetween tokens
      (greatestClass.modifiers ++ greatestClass.keyword :: greatestClass.name ::
        greatestClass.header ++ mark openBrace greatestClass.openLine ::
          ([] : List WrittenMember).flatMap (·.tokens) ++ wideMethod.beforeName)
      (wide.token 2)
      (wideMethod.behindName ++ ([] : List WrittenMember).flatMap (·.tokens) ++
        mark closeBrace greatestClass.closeLine :: []) :=
    ⟨tokens.take 5, tokens.drop 6, by decide +kernel, by decide +kernel, by decide +kernel⟩
  obtain ⟨kind, -⟩ := identifiers_read (q := ⟨true, greatest, [wide]⟩) (by decide +kernel)
  obtain ⟨-, readsClass⟩ := identifiers_read (q := greatest.name) (by decide +kernel)
  obtain ⟨-, readsMethod⟩ := identifiers_read (q := wide.name) (by decide +kernel)
  have classRead := (readsClass greatest 2 "public" tokens rfl classified).1 greatestClass []
    classStands
  have methodRead := (readsMethod wide 2 "public" tokens rfl classified).2 greatestClass wideMethod
    [] [] [] methodStands
  have spelled : QualifiedName.text ⟨true, greatest, [wide]⟩ = "\\Größte\\宽_2" := by decide +kernel
  have named : QualifiedName.kind ⟨true, greatest, [wide]⟩ = .name := by decide +kernel
  have classText : greatest.name.text = "Größte" := by decide +kernel
  have methodText : wide.name.text = "宽_2" := by decide +kernel
  rw [spelled, named] at kind
  rw [classText] at classRead
  rw [methodText] at methodRead
  exact ⟨kind, classRead.mpr (by decide +kernel), methodRead.mpr (by decide +kernel)⟩

/-- A character beyond the basic plane, a superscript digit and a blank begin identifiers. -/
def unnamed : List Identifier :=
  [⟨'😀', [], by decide, by decide⟩, ⟨'²', ['a'], by decide, by decide⟩,
    ⟨'\u00a0', [], by decide, by decide⟩]

/-- Not every identifier is a name: a class with such an identifier for its name is not read. -/
theorem identifiers_unnamed :
    unnamed.map (fun i => Kind.keyword? i.text) = [none, none, none] ∧
      unnamed.map (fun i => Kind.ofText "" i.text) = [.punct, .number, .whitespace] ∧
      ∀ i ∈ unnamed, (read "public" (ofWords 2 ["class", i.text, "\x7b", "\x7d"])).head = none := by
  decide +kernel

end ClassShape

end RenderTrace
