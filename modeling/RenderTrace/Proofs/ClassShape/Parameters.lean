import RenderTrace.Proofs.ClassShape.Written

/-!
# Reading parameters back

A written parameter is contained, so the list is cut exactly at the commas written
between parameters, and each group gives back the parameter it was written from.
-/

namespace RenderTrace

namespace Token

/-! ## Contained tokens -/

theorem containedFrom_append {a b : List Token} {depth : Nat} (h : containedFrom depth a) :
    containedFrom depth (a ++ b) = containedFrom 0 b := by
  induction a generalizing depth with
  | nil =>
      have zero : depth = 0 := by simpa [containedFrom] using h
      rw [zero, List.nil_append]
  | cons t a ih =>
      rw [List.cons_append, containedFrom]
      rw [containedFrom] at h
      split at h
      · exact absurd h Bool.false_ne_true
      next inside =>
        rw [if_neg inside]
        split at h
        next opens => rw [if_pos opens, ih h]
        next opens =>
          rw [if_neg opens]
          split at h
          next closes =>
            obtain ⟨positive, h⟩ := Bool.and_eq_true_iff.mp h
            rw [if_pos closes, positive, Bool.true_and, ih h]
          next closes => rw [if_neg closes, ih h]

theorem isContained_append {a b : List Token} (ha : isContained a) (hb : isContained b) :
    isContained (a ++ b) := by
  rw [isContained, containedFrom_append ha]
  exact hb

/-- Balanced tokens inside a bracket leave it open. -/
theorem containedFrom_balanced {ts : List Token} {depth : Nat} (k : Nat) (rest : List Token)
    (h : balancedFrom opensBracket closesBracket depth ts) :
    containedFrom (depth + (k + 1)) (ts ++ rest) = containedFrom (k + 1) rest := by
  have inside : ∀ depth t, 1 ≤ depth → ((depth == 0) && endsParameter t) = false := by
    intro depth t deep
    have positive : (depth == 0) = false := by simpa using Nat.ne_of_gt deep
    rw [positive, Bool.false_and]
  refine scan_balanced containedFrom 1 ?_ ?_ ?_ rest (by omega) h
  · intro depth t rest deep isOpen
    rw [containedFrom, inside depth t deep, if_neg Bool.false_ne_true, if_pos isOpen]
  · intro depth t rest deep notOpen isClose
    have positive : (depth + 1 != 0) = true := by simp
    rw [containedFrom, inside (depth + 1) t (by omega), if_neg Bool.false_ne_true, notOpen,
      if_neg Bool.false_ne_true, if_pos isClose, positive, Bool.true_and, Nat.add_sub_cancel]
  · intro depth t rest deep notOpen notClose
    rw [containedFrom, inside depth t deep, if_neg Bool.false_ne_true, notOpen,
      if_neg Bool.false_ne_true, notClose, if_neg Bool.false_ne_true]

/-- Balanced tokens are contained between a bracket that opens and one that closes. -/
theorem isContained_enclosed {o c : Token} {ts : List Token} (balanced : bracketsBalanced ts)
    (opens : ∀ rest, containedFrom 0 (o :: rest) = containedFrom 1 rest)
    (closes : containedFrom 1 [c]) : isContained (o :: ts ++ [c]) := by
  have inside := containedFrom_balanced 0 [c] balanced
  rw [Nat.zero_add] at inside
  rw [isContained, List.cons_append, opens, inside]
  exact closes

/-- Contained tokens are balanced. -/
theorem balancedFrom_of_containedFrom {ts : List Token} {depth : Nat}
    (contained : containedFrom depth ts) : balancedFrom opensBracket closesBracket depth ts := by
  induction ts generalizing depth with
  | nil => exact contained
  | cons t ts ih =>
      rw [containedFrom] at contained
      rw [balancedFrom]
      split at contained
      · exact absurd contained Bool.false_ne_true
      · split at contained
        next opens => rw [if_pos opens, ih contained]
        next opens =>
          rw [if_neg opens]
          split at contained
          next closes =>
            obtain ⟨deep, contained⟩ := Bool.and_eq_true_iff.mp contained
            rw [if_pos closes, deep, ih contained, Bool.and_self]
          next closes => rw [if_neg closes, ih contained]

theorem isContained_of_isWord {t : Token} (h : !t.isParameterMark) : isContained [t] := by
  obtain ⟨opens, closes, ends, _⟩ := of_not_isParameterMark h
  simp [isContained, containedFrom, opens, closes, ends]

theorem isContained_mark? {text : String} (line? : Option Int)
    (h : isContained [mark text 0]) : isContained (mark? text line?) := by
  cases line? with
  | none => rfl
  | some line => exact h

theorem isContained_of_areWords {ts : List Token} (words : ∀ t ∈ ts, !t.isParameterMark) :
    isContained ts := by
  induction ts with
  | nil => rfl
  | cons t ts ih =>
      obtain ⟨word, later⟩ := List.forall_mem_cons.mp words
      exact isContained_append (isContained_of_isWord word) (ih later)

theorem isContained_flatMap {α : Type} {f : α → List Token} (as : List α)
    (each : ∀ a, isContained (f a)) : isContained (as.flatMap f) := by
  induction as with
  | nil => rfl
  | cons a as ih =>
      rw [List.flatMap_cons]
      exact isContained_append (each a) ih

/-! ## Cutting a list -/

/-- The groups with tokens put before the first. -/
def Groups.prepend (ts : List Token) (g : Groups) : Groups :=
  ⟨ts ++ g.first, g.later, g.rest⟩

theorem depthChange_eq (t : Token) :
    t.depthChange = if opensBracket t then 1 else if closesBracket t then -1 else 0 := by
  simp [depthChange, opensBracket, closesBracket]

/-- Contained tokens stay in one group. -/
theorem groups_contained {ts : List Token} {depth : Nat} (rest : List Token)
    (h : containedFrom depth ts) :
    groups depth (ts ++ rest) = (groups 0 rest).prepend ts := by
  induction ts generalizing depth with
  | nil =>
      have zero : depth = 0 := by simpa [containedFrom] using h
      subst zero
      rfl
  | cons t ts ih =>
      rw [containedFrom] at h
      split at h
      · exact absurd h Bool.false_ne_true
      next inside =>
        have closing : ¬ ((depth : Int) = 0 ∧ t.text = ")") := by
          rintro ⟨zero, text⟩
          have opens : opensBracket t = false := by simp [opensBracket, text, openBrace]
          have closes : closesBracket t = true := by simp [closesBracket, text]
          have none : depth = 0 := by omega
          simp [opens, closes, none] at h
        have ending : ¬ ((depth : Int) = 0 ∧ (t.text = openBrace ∨ t.text = ";")) := by
          rintro ⟨zero, text⟩
          have none : depth = 0 := by omega
          rcases text with text | text
          · exact inside (by simp [none, endsParameter, text])
          · exact inside (by simp [none, endsParameter, text])
        have comma : ¬ ((depth : Int) = 0 ∧ t.text = ",") := by
          rintro ⟨zero, text⟩
          have none : depth = 0 := by omega
          exact inside (by simp [none, endsParameter, text])
        have deeper : groups (depth + t.depthChange) (ts ++ rest) =
            (groups 0 rest).prepend ts := by
          rw [depthChange_eq]
          split at h
          next opens =>
            rw [if_pos opens]
            exact ih h
          next opens =>
            rw [if_neg opens]
            split at h
            next closes =>
              obtain ⟨positive, h⟩ := Bool.and_eq_true_iff.mp h
              have less : (depth : Int) + -1 = ((depth - 1 : Nat) : Int) := by
                have : depth ≠ 0 := by simpa using positive
                omega
              rw [if_pos closes, less]
              exact ih h
            next closes =>
              rw [if_neg closes, Int.add_zero]
              exact ih h
        rw [List.cons_append, groups, if_neg closing, if_neg ending, if_neg comma, deeper]
        rfl

/-! ## Attributes -/

/-- Balanced tokens inside an attribute are passed over. -/
theorem outsideAttributes_balanced {ts : List Token} {depth : Nat} (k : Nat) (rest : List Token)
    (h : balancedFrom opensSquare closesSquare depth ts) :
    outsideAttributes (depth + (k + 1)) (ts ++ rest) = outsideAttributes (k + 1) rest := by
  refine scan_balanced outsideAttributes 1 ?_ ?_ ?_ rest (by omega) h
  · intro depth t rest deep isOpen
    have text : t.text = "[" ∨ t.text = "#[" := by simpa [opensSquare] using isOpen
    rw [outsideAttributes, if_neg (by omega), if_pos text]
  · intro depth t rest deep notOpen isClose
    have other : ¬ (t.text = "[" ∨ t.text = "#[") := by simpa [opensSquare] using notOpen
    have text : t.text = "]" := by simpa [closesSquare] using isClose
    rw [outsideAttributes, if_neg (by omega), if_neg other, if_pos text, Nat.add_sub_cancel]
  · intro depth t rest deep notOpen notClose
    have other : ¬ (t.text = "[" ∨ t.text = "#[") := by simpa [opensSquare] using notOpen
    have text : t.text ≠ "]" := by simpa [closesSquare] using notClose
    rw [outsideAttributes, if_neg (by omega), if_neg other, if_neg text]

theorem outsideAttributes_of_ne {ts : List Token} (h : ∀ t ∈ ts, t.text ≠ "#[") :
    outsideAttributes 0 ts = ts := by
  induction ts with
  | nil => rfl
  | cons t ts ih =>
      rw [outsideAttributes, if_pos rfl, if_neg (h t List.mem_cons_self),
        ih fun u mem => h u (List.mem_cons_of_mem _ mem)]

theorem ne_attribute_of_isWord {t : Token} (h : !t.isParameterMark) : t.text ≠ "#[" := by
  intro text
  have opens := (of_not_isParameterMark h).1
  simp [opensBracket, text] at opens

end Token

open Token

/-- What stands before the first variable of a group decides what the parameter is, but for its name
and its default. -/
theorem Parameter.ofGroup_named {group before after : List Token} {name : Token}
    (bare : outsideAttributes 0 group = before ++ name :: after)
    (unnamed : ∀ t ∈ before, !t.namesParameter) (named : name.namesParameter) :
    ofGroup group =
      let kept := before.filter fun t => !t.isModifier && t.text != "&"
      { name := some name.text
        type := joinTexts? (kept.filter fun t => !t.marksNullable && !t.marksVariadic)
        isNullable := kept.any (·.marksNullable)
        isVariadic := kept.any (·.marksVariadic)
        isByReference := before.any (·.marksReference)
        default := joinTexts? (after.eraseP fun t => t.text == "=")
        tokens := kept ++ name :: after } := by
  have taken : ((before ++ name :: after).takeWhile fun t => !t.namesParameter) = before := by
    rw [List.takeWhile_append_of_pos unnamed]
    simp [named]
  have dropped : ((before ++ name :: after).dropWhile fun t => !t.namesParameter) =
      name :: after := by
    rw [List.dropWhile_append_of_pos unnamed]
    simp [named]
  simp only [ofGroup, bare, taken, dropped]
  rfl

/-- The modifiers among decorations. -/
def WrittenDecoration.modifiers : List WrittenDecoration → List Token
  | [] => []
  | .modifier t _ _ :: rest => t :: modifiers rest
  | .attributes .. :: rest => modifiers rest

/-- Setting attributes aside leaves the modifiers of the decorations. -/
theorem outsideAttributes_decorations (ds : List WrittenDecoration) (rest : List Token) :
    outsideAttributes 0 (ds.flatMap (·.tokens) ++ rest) =
      WrittenDecoration.modifiers ds ++ outsideAttributes 0 rest := by
  induction ds with
  | nil => rfl
  | cons d ds ih =>
      rw [List.flatMap_cons, List.append_assoc]
      cases d with
      | modifier t isModifier isWord =>
          have text := ne_attribute_of_isWord isWord
          rw [WrittenDecoration.tokens, List.singleton_append, outsideAttributes, if_pos rfl,
            if_neg text, ih]
          rfl
      | attributes openLine content closeLine brackets squares =>
          have inside := outsideAttributes_balanced 0
            (mark "]" closeLine :: (ds.flatMap (·.tokens) ++ rest)) squares
          rw [Nat.zero_add] at inside
          rw [WrittenDecoration.tokens, List.cons_append, List.cons_append, outsideAttributes,
            if_pos rfl, text_mark, if_pos rfl, List.append_assoc, List.singleton_append, inside]
          exact ih

theorem isModifier_of_mem_modifiers {ds : List WrittenDecoration} {t : Token}
    (h : t ∈ WrittenDecoration.modifiers ds) : t.isModifier := by
  induction ds with
  | nil => exact absurd h List.not_mem_nil
  | cons d ds ih =>
      cases d with
      | modifier u isModifier isWord =>
          rcases List.mem_cons.mp h with rfl | later
          · exact isModifier
          · exact ih later
      | attributes => exact ih h

theorem WrittenDecoration.isContained_tokens (d : WrittenDecoration) : isContained d.tokens := by
  cases d with
  | modifier t _ isWord => exact isContained_of_isWord isWord
  | attributes openLine content closeLine brackets squares =>
      exact isContained_enclosed brackets (fun _ => rfl) rfl

/-- A parameter with any contained tokens in the place of its type is contained. -/
theorem WrittenParameter.isContained_around (p : WrittenParameter) {type : List Token}
    (contained : isContained type) :
    isContained (p.decorations.flatMap (·.tokens) ++ mark? "?" p.nullable ++ type ++
      mark? "&" p.reference ++ p.variadic.toList ++ p.name :: p.defaultTokens) := by
  have decorations : isContained (p.decorations.flatMap (·.tokens)) :=
    isContained_flatMap p.decorations (·.isContained_tokens)
  have variadic : isContained p.variadic.toList := by
    cases h : p.variadic with
    | none => rfl
    | some t => exact isContained_of_isWord (p.variadic_isWord t h).2
  have default : isContained p.defaultTokens := by
    rw [WrittenParameter.defaultTokens]
    cases h : p.default with
    | none => rfl
    | some d => exact (p.default_isContained d h).2.1
  have named : isContained (p.name :: p.defaultTokens) :=
    isContained_append (isContained_of_isWord p.name_isWord.2) default
  exact isContained_append (isContained_append (isContained_append (isContained_append
    (isContained_append decorations (isContained_mark? _ rfl)) contained)
    (isContained_mark? _ rfl)) variadic) named

theorem WrittenParameter.isContained_tokens (p : WrittenParameter) : isContained p.tokens :=
  p.isContained_around p.type_isContained

namespace WrittenParameter

variable (p : WrittenParameter)

/-- What stands before the variable when attributes are set aside. -/
def beforeName : List Token :=
  WrittenDecoration.modifiers p.decorations ++ mark? "?" p.nullable ++ p.type ++
    mark? "&" p.reference ++ p.variadic.toList

/-- A token before the variable is a modifier, one of the two marks, a word of the type, or the
dots. -/
theorem mem_beforeName {t : Token} (h : t ∈ p.beforeName) :
    t.isModifier ∨ (t.text = "?" ∧ t.kind = .punct) ∨ t.isTypeWord ∨
      (t.text = "&" ∧ t.kind = .punct) ∨ (t.kind = .ellipsis ∧ !t.isParameterMark) := by
  simp only [beforeName, List.mem_append] at h
  rcases h with (((modifier | nullable) | type) | reference) | variadic
  · exact Or.inl (isModifier_of_mem_modifiers modifier)
  · exact Or.inr (Or.inl (mem_mark? nullable))
  · exact Or.inr (Or.inr (Or.inl (p.type_isTypeWord t type)))
  · exact Or.inr (Or.inr (Or.inr (Or.inl (mem_mark? reference))))
  · exact Or.inr (Or.inr (Or.inr (Or.inr (p.variadic_isWord t (Option.mem_toList.mp variadic)))))

theorem ne_attribute_of_mem_defaultTokens {t : Token} (h : t ∈ p.defaultTokens) :
    t.text ≠ "#[" := by
  rw [defaultTokens] at h
  cases equal : p.default with
  | none =>
      rw [equal] at h
      exact absurd h List.not_mem_nil
  | some d =>
      rw [equal] at h
      rcases List.mem_cons.mp h with rfl | value
      · simp
      · exact (p.default_isContained d equal).2.2 t value

/-- Past the decorations nothing opens an attribute. -/
theorem ne_attribute_of_mem {t : Token} (h : t ∈ mark? "?" p.nullable ++ (p.type ++
    (mark? "&" p.reference ++ (p.variadic.toList ++ p.name :: p.defaultTokens)))) :
    t.text ≠ "#[" := by
  simp only [List.mem_append, List.mem_cons] at h
  rcases h with nullable | type | reference | variadic | rfl | default
  · rw [(mem_mark? nullable).1]
    decide
  · have word := p.type_isTypeWord t type
    simp only [isTypeWord, Bool.and_eq_true, bne_iff_ne] at word
    exact word.2
  · rw [(mem_mark? reference).1]
    decide
  · exact ne_attribute_of_isWord (p.variadic_isWord t (Option.mem_toList.mp variadic)).2
  · exact ne_attribute_of_isWord p.name_isWord.2
  · exact p.ne_attribute_of_mem_defaultTokens default

/-- With its attributes set aside the parameter is what stands before the variable, the variable
and the default. -/
theorem outsideAttributes_tokens :
    outsideAttributes 0 p.tokens = p.beforeName ++ p.name :: p.defaultTokens := by
  simp only [tokens, beforeName, List.append_assoc]
  rw [outsideAttributes_decorations, outsideAttributes_of_ne fun t => p.ne_attribute_of_mem]

theorem namesParameter_name : p.name.namesParameter := by
  obtain ⟨kind, word⟩ := p.name_isWord
  obtain ⟨_, _, _, ampersand, question⟩ := of_not_isParameterMark word
  simp [namesParameter, kind, ampersand, question]

theorem not_namesParameter_of_mem_beforeName {t : Token} (h : t ∈ p.beforeName) :
    !t.namesParameter := by
  rcases p.mem_beforeName h with modifier | ⟨text, kind⟩ | word | ⟨text, kind⟩ | ⟨kind, _⟩
  · have other : t.kind ≠ .var := by
      intro kind
      rw [isModifier, kind] at modifier
      exact Bool.false_ne_true modifier
    simp [namesParameter, other]
  · simp [namesParameter, kind]
  · simp only [isTypeWord, Bool.and_eq_true, bne_iff_ne] at word
    simp [namesParameter, word.1.1.1.1.2]
  · simp [namesParameter, kind]
  · simp [namesParameter, kind]

/-- What the parameter keeps of the tokens before the variable. -/
def keptTokens : List Token :=
  mark? "?" p.nullable ++ p.type ++ p.variadic.toList

theorem isTypeWord_of_mem_type {t : Token} (h : t ∈ p.type) :
    t.isModifier = false ∧ t.text ≠ "&" ∧ t.marksNullable = false ∧ t.marksVariadic = false := by
  have word := p.type_isTypeWord t h
  simp only [isTypeWord, Bool.and_eq_true, Bool.not_eq_true', bne_iff_ne] at word
  obtain ⟨⟨⟨⟨⟨modifier, _⟩, dots⟩, ampersand⟩, question⟩, _⟩ := word
  refine ⟨modifier, ampersand, ?_, ?_⟩
  · simp [marksNullable, question]
  · simp [marksVariadic, dots]

theorem variadic_eq {t : Token} (h : t ∈ p.variadic.toList) :
    t.isModifier = false ∧ t.text ≠ "&" ∧ t.marksNullable = false ∧ t.marksVariadic := by
  obtain ⟨kind, word⟩ := p.variadic_isWord t (Option.mem_toList.mp h)
  obtain ⟨_, _, _, ampersand, question⟩ := of_not_isParameterMark word
  have plain : t.marksNullable = false := by simp [marksNullable, question]
  refine ⟨?_, ampersand, plain, ?_⟩
  · simp [isModifier, kind, Kind.isModifier]
  · simp [marksVariadic, plain, kind]

/-- Modifiers and the ampersand are not kept. -/
theorem filter_beforeName :
    (p.beforeName.filter fun t => !t.isModifier && t.text != "&") = p.keptTokens := by
  have modifiers : ((WrittenDecoration.modifiers p.decorations).filter
      fun t => !t.isModifier && t.text != "&") = [] := by
    rw [List.filter_eq_nil_iff]
    intro t mem
    simp [isModifier_of_mem_modifiers mem]
  have nullable : ((mark? "?" p.nullable).filter fun t => !t.isModifier && t.text != "&") =
      mark? "?" p.nullable := by
    rw [List.filter_eq_self]
    intro t mem
    obtain ⟨text, kind⟩ := mem_mark? mem
    simp [text, isModifier, kind, Kind.isModifier]
  have type : (p.type.filter fun t => !t.isModifier && t.text != "&") = p.type := by
    rw [List.filter_eq_self]
    intro t mem
    obtain ⟨modifier, ampersand, _⟩ := p.isTypeWord_of_mem_type mem
    simp [modifier, ampersand]
  have reference : ((mark? "&" p.reference).filter fun t => !t.isModifier && t.text != "&") =
      [] := by
    rw [List.filter_eq_nil_iff]
    intro t mem
    simp [(mem_mark? mem).1]
  have variadic : (p.variadic.toList.filter fun t => !t.isModifier && t.text != "&") =
      p.variadic.toList := by
    rw [List.filter_eq_self]
    intro t mem
    obtain ⟨modifier, ampersand, _⟩ := p.variadic_eq mem
    simp [modifier, ampersand]
  simp only [beforeName, List.filter_append]
  rw [modifiers, nullable, type, reference, variadic, List.nil_append, List.append_nil, keptTokens]

/-- The words of the type are what is kept less the question mark and the dots. -/
theorem filter_keptTokens :
    (p.keptTokens.filter fun t => !t.marksNullable && !t.marksVariadic) = p.type := by
  have nullable : ((mark? "?" p.nullable).filter
      fun t => !t.marksNullable && !t.marksVariadic) = [] := by
    rw [List.filter_eq_nil_iff]
    intro t mem
    simp [marksNullable, (mem_mark? mem).1]
  have type : (p.type.filter fun t => !t.marksNullable && !t.marksVariadic) = p.type := by
    rw [List.filter_eq_self]
    intro t mem
    obtain ⟨_, _, question, dots⟩ := p.isTypeWord_of_mem_type mem
    simp [question, dots]
  have variadic : (p.variadic.toList.filter
      fun t => !t.marksNullable && !t.marksVariadic) = [] := by
    rw [List.filter_eq_nil_iff]
    intro t mem
    simp [(p.variadic_eq mem).2.2.2]
  simp only [keptTokens, List.filter_append]
  rw [nullable, type, variadic, List.nil_append, List.append_nil]

theorem any_marksNullable : p.keptTokens.any (·.marksNullable) = p.nullable.isSome := by
  have type : p.type.any (·.marksNullable) = false := by
    rw [List.any_eq_false]
    intro t mem
    simp [(p.isTypeWord_of_mem_type mem).2.2.1]
  have variadic : p.variadic.toList.any (·.marksNullable) = false := by
    rw [List.any_eq_false]
    intro t mem
    simp [(p.variadic_eq mem).2.2.1]
  rw [keptTokens, List.any_append, List.any_append, type, variadic, Bool.or_false, Bool.or_false]
  cases p.nullable with
  | none => rfl
  | some line => rfl

theorem any_marksVariadic : p.keptTokens.any (·.marksVariadic) = p.variadic.isSome := by
  have nullable : (mark? "?" p.nullable).any (·.marksVariadic) = false := by
    rw [List.any_eq_false]
    intro t mem
    simp [marksVariadic, (mem_mark? mem).2]
  have type : p.type.any (·.marksVariadic) = false := by
    rw [List.any_eq_false]
    intro t mem
    simp [(p.isTypeWord_of_mem_type mem).2.2.2]
  rw [keptTokens, List.any_append, List.any_append, nullable, type, Bool.false_or, Bool.false_or]
  cases equal : p.variadic with
  | none => rfl
  | some t =>
      have dots : t.marksVariadic := (p.variadic_eq (by simp [equal])).2.2.2
      simp [dots]

theorem any_marksReference : p.beforeName.any (·.marksReference) = p.reference.isSome := by
  have modifiers : (WrittenDecoration.modifiers p.decorations).any (·.marksReference) = false := by
    rw [List.any_eq_false]
    intro t mem
    simp [marksReference, isModifier_of_mem_modifiers mem]
  have nullable : (mark? "?" p.nullable).any (·.marksReference) = false := by
    rw [List.any_eq_false]
    intro t mem
    simp [marksReference, (mem_mark? mem).1]
  have type : p.type.any (·.marksReference) = false := by
    rw [List.any_eq_false]
    intro t mem
    simp [marksReference, (p.isTypeWord_of_mem_type mem).2.1]
  have variadic : p.variadic.toList.any (·.marksReference) = false := by
    rw [List.any_eq_false]
    intro t mem
    simp [marksReference, (p.variadic_eq mem).2.1]
  simp only [beforeName, List.any_append]
  rw [modifiers, nullable, type, variadic, Bool.or_false, Bool.false_or, Bool.false_or,
    Bool.false_or]
  cases p.reference with
  | none => rfl
  | some line => rfl

theorem default_eq :
    joinTexts? (p.defaultTokens.eraseP fun t => t.text == "=") =
      p.default.map fun d => joinTexts d.2 := by
  rw [defaultTokens]
  cases equal : p.default with
  | none => rfl
  | some d =>
      have value : d.2 ≠ [] := (p.default_isContained d equal).1
      simp [joinTexts?, value]

/-- The group of a written parameter gives the parameter back. -/
theorem ofGroup_tokens : Parameter.ofGroup p.tokens = p.shape := by
  rw [Parameter.ofGroup_named p.outsideAttributes_tokens
    (fun t => p.not_namesParameter_of_mem_beforeName) p.namesParameter_name]
  simp only [filter_beforeName, filter_keptTokens, any_marksNullable, any_marksVariadic,
    any_marksReference, default_eq]
  rfl

end WrittenParameter

end RenderTrace
