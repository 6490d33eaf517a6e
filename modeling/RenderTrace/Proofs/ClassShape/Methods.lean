import RenderTrace.Proofs.ClassShape.Parameters

/-!
# Reading a method back

After its keyword a written method is read in three parts, the parameter list, the
return type and the body, and each part stops exactly where the next one begins.
What follows the method is left for the caller.
-/

namespace RenderTrace
open Token

/-! ## The parameter list -/

namespace Token

/-- All the groups, in order. -/
def Groups.all (g : Groups) : List (List Token) :=
  g.first :: g.later

/-- The last group ends at the closing parenthesis. -/
theorem groups_last {last : List Token} (contained : isContained last) (closeLine : Int)
    (rest : List Token) :
    groups 0 (last ++ mark ")" closeLine :: rest) = ⟨last, [], rest⟩ := by
  have close : groups 0 (mark ")" closeLine :: rest) = ⟨[], [], rest⟩ := rfl
  have read := groups_contained (mark ")" closeLine :: rest) contained
  rw [Int.natCast_zero, close] at read
  rw [read, Groups.prepend, List.append_nil]

/-- Each comma between contained groups cuts the list there. -/
theorem groups_comma {group : List Token} (contained : isContained group) (line : Int)
    (rest : List Token) :
    (groups 0 (group ++ mark "," line :: rest)).all = group :: (groups 0 rest).all ∧
      (groups 0 (group ++ mark "," line :: rest)).rest = (groups 0 rest).rest := by
  have comma : groups 0 (mark "," line :: rest) =
      ⟨[], (groups 0 rest).all, (groups 0 rest).rest⟩ := rfl
  have read := groups_contained (mark "," line :: rest) contained
  rw [Int.natCast_zero, comma] at read
  rw [read, Groups.prepend, List.append_nil]
  exact ⟨rfl, rfl⟩

end Token

/-- A list of contained groups is cut at the commas written between them, and what follows the
parenthesis is left. -/
theorem groups_list {α : Type} {f : α → List Token} {last : List Token}
    (each : ∀ a, isContained (f a)) (contained : isContained last) (followed : List (α × Int))
    (closeLine : Int) (rest : List Token) :
    (groups 0 ((followed.flatMap fun p => f p.1 ++ [mark "," p.2]) ++
        (last ++ mark ")" closeLine :: rest))).all = followed.map (fun p => f p.1) ++ [last] ∧
      (groups 0 ((followed.flatMap fun p => f p.1 ++ [mark "," p.2]) ++
        (last ++ mark ")" closeLine :: rest))).rest = rest := by
  induction followed with
  | nil =>
      rw [List.flatMap_nil, List.nil_append, groups_last contained]
      exact ⟨rfl, rfl⟩
  | cons p followed ih =>
      rw [List.flatMap_cons, List.append_assoc, List.append_assoc, List.singleton_append]
      have cut := groups_comma (each p.1) p.2
        ((followed.flatMap fun p => f p.1 ++ [mark "," p.2]) ++
          (last ++ mark ")" closeLine :: rest))
      rw [cut.1, cut.2, ih.1, ih.2]
      exact ⟨rfl, rfl⟩

namespace WrittenMethod

variable (m : WrittenMethod)

/-- The tokens after the last comma. -/
def lastTokens : List Token :=
  m.last.toList.flatMap (·.tokens)

theorem isContained_lastTokens : isContained m.lastTokens := by
  rw [lastTokens]
  cases m.last with
  | none => rfl
  | some p =>
      rw [Option.toList_some, List.flatMap_singleton]
      exact p.isContained_tokens

theorem all_groups (rest : List Token) :
    (groups 0 (m.listTokens ++ mark ")" m.closeLine :: rest)).all =
        m.followed.map (·.1.tokens) ++ [m.lastTokens] ∧
      (groups 0 (m.listTokens ++ mark ")" m.closeLine :: rest)).rest = rest := by
  rw [listTokens, List.append_assoc]
  exact groups_list (·.isContained_tokens) m.isContained_lastTokens m.followed m.closeLine rest

/-- Each group gives its parameter, and the empty one after a final comma a parameter without a
name. -/
theorem map_ofGroup :
    (m.followed.map (·.1.tokens) ++ [m.lastTokens]).map Parameter.ofGroup =
      m.parameters.map (·.shape) ++ (if m.last.isNone then [Parameter.ofGroup []] else []) := by
  have followed : (m.followed.map (·.1.tokens)).map Parameter.ofGroup =
      (m.followed.map (·.1)).map (·.shape) := by
    rw [List.map_map, List.map_map]
    exact List.map_congr_left fun p _ => p.1.ofGroup_tokens
  rw [List.map_append, followed, parameters, List.map_append, List.append_assoc, lastTokens]
  congr 1
  cases m.last with
  | none => rfl
  | some p =>
      rw [Option.toList_some, List.flatMap_singleton, List.map_singleton, p.ofGroup_tokens]
      rfl

theorem filter_map_ofGroup :
    ((m.followed.map (·.1.tokens) ++ [m.lastTokens]).map Parameter.ofGroup).filter
      (·.name.isSome) = m.parameters.map (·.shape) := by
  have named : (m.parameters.map (·.shape)).filter (·.name.isSome) =
      m.parameters.map (·.shape) := by
    rw [List.filter_eq_self]
    intro p mem
    obtain ⟨written, _, rfl⟩ := List.mem_map.mp mem
    rfl
  rw [map_ofGroup, List.filter_append, named]
  cases m.last with
  | none => exact List.append_nil _
  | some p => exact List.append_nil _

theorem flatMap_map_ofGroup :
    ((m.followed.map (·.1.tokens) ++ [m.lastTokens]).map Parameter.ofGroup).flatMap (·.tokens) =
      m.parameters.flatMap (·.shape.tokens) := by
  rw [map_ofGroup, List.flatMap_append, List.flatMap_map]
  cases m.last with
  | none => exact List.append_nil _
  | some p => exact List.append_nil _

end WrittenMethod

/-! ## The return type -/

namespace WrittenBody

variable (b : WrittenBody)

/-- A body begins with a token that ends a return type and is no colon. -/
theorem exists_head : ∃ t more, b.tokens = t :: more ∧ ReturnType.isPart t = false ∧
    t.text ≠ ":" := by
  cases b with
  | semicolon line => exact ⟨mark ";" line, [], rfl, rfl, by simp⟩
  | block openLine content closeLine balanced =>
      exact ⟨mark openBrace openLine, content ++ [mark closeBrace closeLine], rfl, rfl, by
        rw [text_mark]
        decide⟩

/-- A body ends with a token that is no modifier. -/
theorem exists_last : ∃ t before, b.tokens = before ++ [t] ∧ !t.isModifier := by
  cases b with
  | semicolon line => exact ⟨mark ";" line, [], rfl, rfl⟩
  | block openLine content closeLine balanced =>
      exact ⟨mark closeBrace closeLine, mark openBrace openLine :: content, rfl, rfl⟩

theorem readBody_tokens (rest : List Token) :
    Method.readBody (b.tokens ++ rest) = (b.isSemicolon, rest) := by
  cases b with
  | semicolon line => rfl
  | block openLine content closeLine balanced =>
      have other : openBrace ≠ ";" := by decide
      have after : afterBlock (mark openBrace openLine ::
          (content ++ mark closeBrace closeLine :: rest)) = rest :=
        afterBlock_block rest balanced rfl
      rw [tokens, List.append_assoc, List.cons_append, List.singleton_append, Method.readBody,
        text_mark, if_neg other, if_pos rfl, after]
      rfl

end WrittenBody

namespace WrittenReturnType

variable (r : WrittenReturnType)

theorem isPart_of_mem {t : Token} (h : t ∈ mark? "?" r.nullable ++ r.words) :
    ReturnType.isPart t := by
  rcases List.mem_append.mp h with nullable | word
  · obtain ⟨text, kind⟩ := mem_mark? nullable
    simp [ReturnType.isPart, text, kind, openBrace, closeBrace]
  · obtain ⟨semicolon, brace, kind⟩ := r.words_arePart t word
    obtain ⟨opening, closing⟩ := ne_brace_of_not_isBrace brace
    simp [ReturnType.isPart, semicolon, opening, closing, kind]

theorem ofTokens?_words : ReturnType.ofTokens? (mark? "?" r.nullable ++ r.words) =
    some r.shape := by
  have text : joinTexts? r.words = some (joinTexts r.words) := by
    simp [joinTexts?, r.words_ne_nil]
  cases equal : r.nullable with
  | none =>
      have plain : r.words.head?.any (·.marksNullable) = false := by
        rw [Option.any_eq_false]
        intro t head
        simpa [marksNullable] using r.head_isWord equal t head
      rw [show mark? "?" (none : Option Int) = [] from rfl, List.nil_append, ReturnType.ofTokens?,
        plain, if_neg Bool.false_ne_true, text, shape, equal]
      rfl
  | some line =>
      have question : mark? "?" (some line) ++ r.words = mark "?" line :: r.words := rfl
      rw [question, ReturnType.ofTokens?, List.head?_cons, List.tail_cons, text, shape, equal]
      rfl

end WrittenReturnType

theorem read_returnType (r? : Option WrittenReturnType) (b : WrittenBody) (rest : List Token) :
    ReturnType.read (r?.toList.flatMap (·.tokens) ++ (b.tokens ++ rest)) =
      (r?.map (·.shape), b.tokens ++ rest) := by
  obtain ⟨t, more, equal, stops, plain⟩ := b.exists_head
  rw [equal]
  cases r? with
  | none =>
      rw [Option.toList_none, List.flatMap_nil, List.nil_append, List.cons_append,
        ReturnType.read, if_neg plain]
      rfl
  | some r =>
      have part : ∀ u ∈ mark? "?" r.nullable ++ r.words, ReturnType.isPart u :=
        fun u => r.isPart_of_mem
      have taken : (mark? "?" r.nullable ++ r.words ++ t :: (more ++ rest)).takeWhile
          ReturnType.isPart = mark? "?" r.nullable ++ r.words := by
        rw [List.takeWhile_append_of_pos part, List.takeWhile_cons, stops,
          if_neg Bool.false_ne_true, List.append_nil]
      have dropped : (mark? "?" r.nullable ++ r.words ++ t :: (more ++ rest)).dropWhile
          ReturnType.isPart = t :: (more ++ rest) := by
        rw [List.dropWhile_append_of_pos part, List.dropWhile_cons, stops,
          if_neg Bool.false_ne_true]
      rw [Option.toList_some, List.flatMap_singleton, WrittenReturnType.tokens, List.cons_append,
        List.cons_append, ReturnType.read, text_mark, if_pos rfl, taken, dropped,
        r.ofTokens?_words, Option.map_some]

/-! ## The method -/

/-- Two parameter lists whose groups give the same parameters make the same method. -/
theorem Method.readNamed_congr {visibility : String} {modifiers a b : List Token} {name : Token}
    (parameters : (groups 0 a).all.map Parameter.ofGroup = (groups 0 b).all.map Parameter.ofGroup)
    (rest : (groups 0 a).rest = (groups 0 b).rest) :
    readNamed visibility modifiers name a = readNamed visibility modifiers name b := by
  simp only [Groups.all] at parameters
  simp only [readNamed, parameters, rest]

/-- After an optional ampersand and the name, the parenthesis opens the parameter list. -/
theorem Method.read_opened {visibility : String} {modifiers : List Token}
    (reference : Option Int) {name : Token} (line : Int) (inside : List Token)
    (isName : !name.kind.isNeverName ∧ name.text ≠ "&") :
    Method.read visibility modifiers
        (mark? "&" reference ++ name :: mark "(" line :: inside) =
      (some (readNamed visibility modifiers name inside).1,
        (readNamed visibility modifiers name inside).2) := by
  obtain ⟨isName, plain⟩ := isName
  have named : ¬ (name.kind.isNeverName = true) := by simpa using isName
  cases reference with
  | none =>
      have none : mark? "&" (none : Option Int) = [] := rfl
      rw [none, List.nil_append, Method.read]
      simp only [if_neg plain, if_neg named, text_mark, if_pos]
  | some line =>
      have some : mark? "&" (some line) = [mark "&" line] := rfl
      rw [some, List.singleton_append, Method.read]
      simp only [if_neg named, text_mark, if_pos]

/-- The visibility that counts is the last. -/
theorem Method.visibilityModifier?_eq (modifiers : List Token) :
    visibilityModifier? modifiers =
      (modifiers.filter fun t => t.kind matches .modifier (.visibility _)).getLast? := by
  rw [List.getLast?_filter]
  rfl

namespace WrittenMethod

variable (m : WrittenMethod)

/-- After the opening parenthesis the method is read. -/
theorem readNamed_tokens (visibility : String) (rest : List Token) :
    Method.readNamed visibility m.modifiers m.name (m.listTokens ++ mark ")" m.closeLine ::
      (m.returnType.toList.flatMap (·.tokens) ++ (m.body.tokens ++ rest))) =
        (m.shape visibility, rest) := by
  obtain ⟨groups, after⟩ := m.all_groups
    (m.returnType.toList.flatMap (·.tokens) ++ (m.body.tokens ++ rest))
  have found : Method.visibilityModifier? m.modifiers = m.visibilities.getLast? :=
    Method.visibilityModifier?_eq m.modifiers
  rw [Groups.all] at groups
  simp only [Method.readNamed, groups, after, read_returnType, m.body.readBody_tokens,
    filter_map_ofGroup, flatMap_map_ofGroup, found]
  rw [shape, Bool.or_comm]
  cases m.visibilities.getLast? with
  | none => rfl
  | some t => rfl

/-- After its keyword the method is read, and what follows it is left. -/
theorem read_headTokens (visibility : String) (rest : List Token) :
    Method.read visibility m.modifiers (m.headTokens ++ rest) =
      (some (m.shape visibility), rest) := by
  have after : m.headTokens ++ rest = mark? "&" m.reference ++ m.name :: mark "(" m.openLine ::
      (m.listTokens ++ mark ")" m.closeLine ::
        (m.returnType.toList.flatMap (·.tokens) ++ (m.body.tokens ++ rest))) := by
    simp [headTokens]
  rw [after, Method.read_opened m.reference m.openLine _ m.name_isName, readNamed_tokens]

end WrittenMethod

end RenderTrace
