import RenderTrace.Proofs.ClassShape.Places

/-!
# Slices of a signature

The tokens that a parameter keeps say all there is to it, except that it is taken by
reference: read as a group of their own they give the same parameter. The signature of a
method is made of what the groups of its list keep. Its parameters hold all of that but
for what was kept of groups that name no variable.
-/

namespace RenderTrace
open Token ClassShape
open scoped List

/-! ## Reading again what was kept -/

namespace Token

/-- Nothing outside attributes opens one. -/
theorem ne_attribute_of_mem_outsideAttributes {depth : Nat} {tokens : List Token} {t : Token}
    (mem : t ∈ outsideAttributes depth tokens) : t.text ≠ "#[" := by
  fun_induction outsideAttributes depth tokens with
  | case1 => exact absurd mem List.not_mem_nil
  | case2 u rest opens ih => exact ih mem
  | case3 u rest plain ih =>
      rcases List.mem_cons.mp mem with rfl | later
      · exact plain
      · exact ih later
  | case4 depth u rest inside opens ih => exact ih mem
  | case5 depth u rest inside opens closes ih => exact ih mem
  | case6 depth u rest inside opens closes ih => exact ih mem

end Token

namespace Parameter

/-- A group without attributes, of which all tokens are kept: before its variable stands no modifier
and no ampersand. -/
theorem ofGroup_kept {kept named : List Token} (plain : ∀ t ∈ kept ++ named, t.text ≠ "#[")
    (before : ∀ t ∈ kept, !t.namesParameter ∧ (!t.isModifier && t.text != "&"))
    (headed : ∀ t ∈ named.head?, t.namesParameter) :
    ofGroup (kept ++ named) =
      { name := named.head?.map (·.text)
        type := joinTexts? (kept.filter fun t => !t.marksNullable && !t.marksVariadic)
        isNullable := kept.any (·.marksNullable)
        isVariadic := kept.any (·.marksVariadic)
        isByReference := false
        default := joinTexts? (named.tail.eraseP fun t => t.text == "=")
        tokens := kept ++ named } := by
  have unnamed : ∀ t ∈ kept, (!t.namesParameter) = true := fun t mem => (before t mem).1
  have stop : named.takeWhile (fun t => !t.namesParameter) = [] ∧
      named.dropWhile (fun t => !t.namesParameter) = named := by
    cases named with
    | nil => exact ⟨rfl, rfl⟩
    | cons t named =>
        have names : t.namesParameter = true := headed t rfl
        simp [names]
  have same : (kept.filter fun t => !t.isModifier && t.text != "&") = kept :=
    List.filter_eq_self.mpr fun t mem => (before t mem).2
  have noReference : kept.any (·.marksReference) = false := by
    rw [List.any_eq_false]
    intro t mem
    have plain := (before t mem).2
    simp only [Bool.and_eq_true, bne_iff_ne] at plain
    simp [marksReference, plain.2]
  simp only [ofGroup, outsideAttributes_of_ne plain, List.takeWhile_append_of_pos unnamed,
    List.dropWhile_append_of_pos unnamed, stop, List.append_nil, same, noReference]

/-- The parameter of what was kept of a group is that of the group, but it is not taken by
reference. -/
theorem ofGroup_tokens_ofGroup (group : List Token) :
    ofGroup (ofGroup group).tokens = { ofGroup group with isByReference := false } := by
  have parts := List.takeWhile_append_dropWhile (p := fun t : Token => !t.namesParameter)
    (l := outsideAttributes 0 group)
  apply ofGroup_kept
  · intro t mem
    have outside : t ∈ outsideAttributes 0 group := by
      rw [← parts]
      exact (List.filter_sublist.append_right _).subset mem
    exact ne_attribute_of_mem_outsideAttributes outside
  · intro t mem
    obtain ⟨mem, kept⟩ := List.mem_filter.mp mem
    have unnamed : (!t.namesParameter) = true :=
      List.mem_takeWhile_imp (p := fun t : Token => !t.namesParameter) mem
    exact ⟨unnamed, kept⟩
  · intro t head
    have stops := List.head?_dropWhile_not (fun t : Token => !t.namesParameter)
      (outsideAttributes 0 group)
    rw [head] at stops
    simpa using stops

end Parameter

/-! ## The parameters and the signature -/

/-- Elements left out by a filter add nothing exactly when each of them stands for nothing. -/
theorem flatMap_filter_eq_iff {α β : Type} {f : α → List β} {p : α → Bool} (items : List α) :
    (items.filter p).flatMap f <+ items.flatMap f ∧
      ((items.filter p).flatMap f = items.flatMap f ↔ ∀ a ∈ items, p a = false → f a = []) := by
  induction items with
  | nil => simp
  | cons a items ih =>
      obtain ⟨sub, equal⟩ := ih
      rw [List.flatMap_cons, List.forall_mem_cons]
      cases keeps : p a with
      | true =>
          rw [List.filter_cons_of_pos keeps, List.flatMap_cons]
          refine ⟨(List.Sublist.refl _).append sub, ?_⟩
          simp [equal]
      | false =>
          rw [List.filter_cons_of_neg (by simp [keeps])]
          refine ⟨sub.trans (List.sublist_append_right _ _), ?_⟩
          constructor
          · intro same
            have short := sub.length_le
            have length := congrArg List.length same
            rw [List.length_append] at length
            have none : f a = [] := List.eq_nil_of_length_eq_zero (by omega)
            rw [none, List.nil_append] at same
            exact ⟨fun _ => none, equal.mp same⟩
          · rintro ⟨none, rest⟩
            rw [none rfl, List.nil_append]
            exact equal.mpr rest

namespace Method

/-- The method is read from tokens in which its parameter list begins with the given ones: they stand
behind a function keyword, a name that an ampersand may precede, and a parenthesis. -/
def IsReadFrom (visibility : String) (tokens listed : List Token) (m : Method) : Prop :=
  ∃ before keyword marks name opening modifiers,
    tokens = before ++ keyword :: (marks ++ name :: opening :: listed) ∧
      keyword.kind = .function ∧ (∀ t ∈ marks, t.text = "&") ∧ opening.text = "(" ∧
      (readNamed visibility modifiers name listed).1 = m

theorem exists_isReadFrom_of_read {visibility : String} {modifiers tokens : List Token}
    {m : Method} {keyword : Token} (kind : keyword.kind = .function)
    (found : (read visibility modifiers tokens).1 = some m) :
    ∃ listed, m.IsReadFrom visibility (keyword :: tokens) listed := by
  obtain ⟨_, _, _, none⟩ | ⟨marks, name, opening, listed, rfl, marked, opens, named⟩ :=
    read_cases visibility modifiers tokens
  · rw [none] at found
    exact absurd found (by simp)
  · rw [named] at found
    refine ⟨listed, [], keyword, marks, name, opening, modifiers, rfl, kind, ?_, opens,
      Option.some.inj found⟩
    rcases marked with ⟨rfl, _⟩ | ⟨t, rfl, ampersand⟩
    · exact List.forall_mem_nil _
    · exact List.forall_mem_singleton.mpr ampersand

theorem IsReadFrom.of_suffix {visibility : String} {tokens whole listed : List Token} {m : Method}
    (read : m.IsReadFrom visibility tokens listed) (suffix : tokens <:+ whole) :
    m.IsReadFrom visibility whole listed := by
  obtain ⟨front, rfl⟩ := suffix
  obtain ⟨before, keyword, marks, name, opening, modifiers, rfl, rest⟩ := read
  exact ⟨front ++ before, keyword, marks, name, opening, modifiers,
    (List.append_assoc _ _ _).symm, rest⟩

end Method

namespace ClassShape

theorem exists_isReadFrom_of_mem_methodsFrom {visibility : String} {seen tokens : List Token}
    {m : Method} (mem : m ∈ methodsFrom visibility seen tokens) :
    ∃ listed, m.IsReadFrom visibility tokens listed := by
  fun_induction methodsFrom visibility seen tokens with
  | case1 seen => exact absurd mem List.not_mem_nil
  | case2 seen t rest closes => exact absurd mem List.not_mem_nil
  | case3 seen t rest closes opens ih =>
      obtain ⟨listed, read⟩ := ih mem
      exact ⟨listed, read.of_suffix (afterBlock_suffix (t :: rest))⟩
  | case4 seen t rest closes opens kind found ih =>
      rcases List.mem_append.mp mem with here | later
      · exact Method.exists_isReadFrom_of_read kind (Option.mem_toList.mp here)
      · obtain ⟨listed, read⟩ := ih later
        have suffix := Method.read_suffix visibility (modifiersBefore seen) rest
        exact ⟨listed, read.of_suffix (suffix.trans (List.suffix_cons t rest))⟩
  | case5 seen t rest closes opens kind ih =>
      obtain ⟨listed, read⟩ := ih mem
      exact ⟨listed, read.of_suffix (List.suffix_cons t rest)⟩

/-- Every method that is read is read from a list among the tokens that carry meaning. -/
theorem exists_isReadFrom {visibility : String} {tokens : List Token} {m : Method}
    (mem : m ∈ (read visibility tokens).methods) :
    ∃ listed, m.IsReadFrom visibility (tokens.filter (!·.isTrivia)) listed := by
  rw [read] at mem
  cases found : findHead [] (significant tokens) with
  | none =>
      rw [found] at mem
      exact absurd mem List.not_mem_nil
  | some p =>
      obtain ⟨head, rest⟩ := p
      rw [found] at mem
      have mem : m ∈ methodsFrom visibility [] (afterOpenBrace rest) := mem
      have more : afterOpenBrace rest ≠ [] := by
        intro none
        rw [none, methodsFrom] at mem
        exact absurd mem List.not_mem_nil
      obtain ⟨front, split, _⟩ := exists_opens found more
      obtain ⟨listed, read⟩ := exists_isReadFrom_of_mem_methodsFrom mem
      exact ⟨listed, read.of_suffix ⟨front, split.symm⟩⟩

/-- What a parameter keeps of its group gives the same parameter again, not taken by reference. The
parameters of any method that is read are slices of its signature, in order, and make up all of it
exactly when every group of its list that names no variable keeps nothing. -/
theorem parameters_areSlices (visibility : String) (tokens : List Token) :
    (∀ group, Parameter.ofGroup (Parameter.ofGroup group).tokens =
      { Parameter.ofGroup group with isByReference := false }) ∧
    ∀ m ∈ (read visibility tokens).methods,
      ∃ listed, m.IsReadFrom visibility (tokens.filter (!·.isTrivia)) listed ∧
        m.parameters.flatMap (·.tokens) <+ m.signature ∧
        (m.parameters.flatMap (·.tokens) = m.signature ↔
          ∀ group ∈ (groups 0 listed).all, (Parameter.ofGroup group).name = none →
            (Parameter.ofGroup group).tokens = []) := by
  refine ⟨Parameter.ofGroup_tokens_ofGroup, ?_⟩
  intro m mem
  obtain ⟨listed, read⟩ := exists_isReadFrom mem
  refine ⟨listed, read, ?_⟩
  obtain ⟨_, _, _, _, _, _, _, _, _, _, rfl⟩ := read
  obtain ⟨sub, equal⟩ := flatMap_filter_eq_iff (f := (·.tokens)) (p := (·.name.isSome))
    ((groups 0 listed).all.map Parameter.ofGroup)
  refine ⟨sub, equal.trans ?_⟩
  simp only [List.forall_mem_map, Option.isSome_eq_false_iff, Option.isNone_iff_eq_none]

/-- A class with a method whose list has a type without a variable and a variable with an
ampersand. -/
def halfNamed : List Token :=
  [⟨.form .classForm, "class", 1⟩, ⟨.name, "A", 1⟩, mark openBrace 1, ⟨.function, "function", 1⟩,
    ⟨.name, "f", 1⟩, mark "(" 1, ⟨.name, "int", 1⟩, mark "," 1, mark "&" 1, ⟨.var, "$a", 1⟩,
    mark ")" 1, mark ";" 1, mark closeBrace 1]

theorem parameters_areSlices_halfNamed :
    ∃ m, (read "public" halfNamed).methods = [m] ∧
      ∃ listed, m.IsReadFrom "public" (halfNamed.filter (!·.isTrivia)) listed ∧
        m.parameters.flatMap (·.tokens) <+ m.signature ∧
        (m.parameters.flatMap (·.tokens) = m.signature ↔
          ∀ group ∈ (groups 0 listed).all, (Parameter.ofGroup group).name = none →
            (Parameter.ofGroup group).tokens = []) := by
  have single : (read "public" halfNamed).methods.length = 1 := by decide +kernel
  obtain ⟨m, single⟩ := List.length_eq_one_iff.mp single
  have mem : m ∈ (read "public" halfNamed).methods := by simp [single]
  exact ⟨m, single, (parameters_areSlices "public" halfNamed).2 m mem⟩

example : (read "public" halfNamed).methods.map (fun m =>
    (m.signature.map (·.text), m.parameters.map fun p => p.tokens.map (·.text))) =
      [(["int", "$a"], [["$a"]])] := by
  decide +kernel

end ClassShape
end RenderTrace
