import RenderTrace.Proofs.ClassShape.CutShort
import RenderTrace.Proofs.ClassShape.RoundTrip

/-!
# Reading tokens that end too early

Reading an initial part of the tokens of a class gives a part of what reading them
all gives. The head is complete or missing, the methods before the last are
complete, and the last has everything that was read of it. Where reading stops at the
closing brace of the class, nothing is missing.

## Implementation notes

The methods of a body are a list, which does not say where reading stopped. The scan
of a body gives the tokens left over as well, and its methods are those of the body.

-/

namespace RenderTrace
open Token

namespace ClassShape

/-! ## The body -/

/-- The methods of a body and the tokens left over where reading stops; `seen` is what has been
read of the body, latest first. -/
def scanBody (visibility : String) (seen tokens : List Token) : List Method × List Token :=
  match tokens with
  | [] => ([], [])
  | t :: rest =>
    if t.text = closeBrace then ([], t :: rest)
    else if t.text = openBrace then
      scanBody visibility (passed (t :: rest) (afterBlock (t :: rest)) ++ seen)
        (afterBlock (t :: rest))
    else if t.kind = .function then
      let found := Method.read visibility (modifiersBefore seen) rest
      let later := scanBody visibility (passed (t :: rest) found.2 ++ seen) found.2
      (found.1.toList ++ later.1, later.2)
    else scanBody visibility (t :: seen) rest
termination_by tokens.length
decreasing_by
  · exact length_afterBlock_lt (by simp)
  · have := Method.length_read_le visibility (modifiersBefore seen) rest
    simp only [List.length_cons]; omega
  · simp

variable {visibility : String} {seen : List Token}

/-- The scan of a body finds its methods. -/
theorem fst_scanBody (visibility : String) (seen tokens : List Token) :
    (scanBody visibility seen tokens).1 = methodsFrom visibility seen tokens := by
  fun_induction methodsFrom visibility seen tokens with
  | case1 seen => rw [scanBody]
  | case2 seen t rest closes => rw [scanBody, if_pos closes]
  | case3 seen t rest closes opens ih => rw [scanBody, if_neg closes, if_pos opens, ih]
  | case4 seen t rest closes opens keyword found ih =>
      rw [scanBody, if_neg closes, if_neg opens, if_pos keyword]
      exact congrArg _ ih
  | case5 seen t rest closes opens keyword ih =>
      rw [scanBody, if_neg closes, if_neg opens, if_neg keyword, ih]

theorem passed_append_append {tokens after : List Token} (more : List Token) :
    passed (tokens ++ more) (after ++ more) = passed tokens after := by
  have length : (tokens ++ more).length - (after ++ more).length =
      tokens.length - after.length := by
    rw [List.length_append, List.length_append]
    omega
  rw [passed, passed, length, List.take_append_of_le_length (Nat.sub_le _ _)]

theorem looksNoFurther_scanBody (visibility : String) (seen : List Token) :
    LooksNoFurther (scanBody visibility seen) := by
  intro tokens more left
  fun_induction scanBody visibility seen tokens with
  | case1 seen => exact absurd rfl left
  | case2 seen t rest closes => rw [List.cons_append, scanBody, if_pos closes]
  | case3 seen t rest closes opens ih =>
      have after : afterBlock (t :: rest) ≠ [] := ne_nil_of_left (by rw [scanBody]) left
      rw [List.cons_append, scanBody, if_neg closes, if_pos opens, ← List.cons_append,
        afterBlock_append more after, passed_append_append, ih left]
  | case4 seen t rest closes opens keyword found later ih =>
      have readOn : found.2 ≠ [] := ne_nil_of_left (by rw [scanBody]) left
      have same := Method.looksNoFurther_read visibility (modifiersBefore seen) rest more readOn
      rw [List.cons_append, scanBody, if_neg closes, if_neg opens, if_pos keyword]
      simp only [same]
      rw [← List.cons_append, passed_append_append, ih left]
  | case5 seen t rest closes opens keyword ih =>
      rw [List.cons_append, scanBody, if_neg closes, if_neg opens, if_neg keyword, ih left]

/-- The methods of a body that ends early are those of the whole body, but for an incomplete last
one. -/
theorem scanBody_cutShort (visibility : String) (seen tokens more : List Token) :
    CutShort Method.IsCutOf (scanBody visibility seen tokens).1
      (scanBody visibility seen (tokens ++ more)).1 := by
  fun_induction scanBody visibility seen tokens with
  | case1 seen => exact CutShort.nil _
  | case2 seen t rest closes => exact CutShort.nil _
  | case3 seen t rest closes opens ih =>
      by_cases runsOut : afterBlock (t :: rest) = []
      · rw [runsOut, scanBody]
        exact CutShort.nil _
      · rw [List.cons_append, scanBody, if_neg closes, if_pos opens, ← List.cons_append,
          afterBlock_append more runsOut, passed_append_append]
        exact ih
  | case4 seen t rest closes opens keyword found later ih =>
      rw [List.cons_append, scanBody, if_neg closes, if_neg opens, if_pos keyword]
      by_cases runsOut : found.2 = []
      · have none : later.1 = [] := by
          simp only [later, runsOut]
          rw [scanBody]
        rw [none, List.append_nil]
        cases read : found.1 with
        | none => exact CutShort.nil _
        | some m =>
            obtain ⟨whole, readWhole, cut⟩ := Method.isCutOf_of_read more read
            simp only [readWhole]
            exact CutShort.last _ cut
      · have same := Method.looksNoFurther_read visibility (modifiersBefore seen) rest more runsOut
        simp only [same]
        rw [← List.cons_append, passed_append_append]
        exact ih.append_left _
  | case5 seen t rest closes opens keyword ih =>
      rw [List.cons_append, scanBody, if_neg closes, if_neg opens, if_neg keyword]
      exact ih

/-! ## The declaration -/

theorem significant_append (tokens more : List Token) :
    significant (tokens ++ more) = significant tokens ++ significantFrom tokens.length more := by
  rw [significant, List.zipIdx_append, Nat.zero_add, List.filter_append, List.map_append]
  rfl

/-- A declaration that has been found is found whatever follows. -/
theorem findHead_append {seen after : List Token} {tokens : List Placed} {head : ClassHead}
    (more : List Placed) (h : findHead seen tokens = some (head, after)) :
    findHead seen (tokens ++ more) = some (head, after ++ more.map (·.token)) := by
  fun_induction findHead seen tokens with
  | case1 seen p q rest form kind isHead =>
      obtain ⟨rfl, rfl⟩ := Prod.mk.inj (Option.some.inj h)
      rw [List.cons_append, List.cons_append, findHead, kind]
      simp only [if_pos isHead, List.map_append]
  | case2 seen p q rest form kind isHead ih =>
      rw [List.cons_append, List.cons_append, findHead, kind]
      simp only [if_neg isHead]
      exact ih h
  | case3 seen p q rest kind ih =>
      rw [List.cons_append, List.cons_append, findHead]
      split
      next form isForm => exact absurd isForm (kind form)
      · exact ih h
  | case4 => exact absurd h (by simp)

theorem afterOpenBrace_append {tokens : List Token} (more : List Token)
    (left : afterOpenBrace tokens ≠ []) :
    afterOpenBrace (tokens ++ more) = afterOpenBrace tokens ++ more := by
  have found : tokens.dropWhile (fun t => t.text != openBrace) ≠ [] := by
    intro none
    rw [afterOpenBrace, none] at left
    exact left rfl
  obtain ⟨_, after⟩ := Prod.mk.inj (looksNoFurther_span _ tokens more found)
  rw [afterOpenBrace, after, List.tail_append_of_ne_nil found, afterOpenBrace]

/-- Reading stops at the closing brace of the class, and not because the tokens run out. -/
def stopsAtBrace (visibility : String) (tokens : List Token) : Bool :=
  match findHead [] (significant tokens) with
  | none => false
  | some (_, rest) => (scanBody visibility [] (afterOpenBrace rest)).2.head?.any closesBrace

/-- What is read of a class whose tokens end early: the head is complete or missing, and so is every
method before the last. -/
structure IsCutOf (shape whole : ClassShape) : Prop where
  head : ∀ head ∈ shape.head, whole.head = some head
  headless : shape.head = none → shape.methods = []
  methods : CutShort Method.IsCutOf shape.methods whole.methods

theorem read_append_isCutOf (visibility : String) (tokens more : List Token) :
    (read visibility tokens).IsCutOf (read visibility (tokens ++ more)) := by
  rw [read]
  cases found : findHead [] (significant tokens) with
  | none =>
      constructor
      · intro head none
        exact absurd none (by simp)
      · intro _
        rfl
      · exact CutShort.nil _
  | some p =>
      obtain ⟨head, rest⟩ := p
      have whole := findHead_append (significantFrom tokens.length more) found
      rw [read, significant_append, whole]
      constructor
      · intro head equal
        exact equal
      · intro none
        exact absurd none (by simp)
      · by_cases runsOut : afterOpenBrace rest = []
        · simp only [runsOut]
          rw [methodsFrom]
          exact CutShort.nil _
        · simp only [afterOpenBrace_append _ runsOut, ← fst_scanBody]
          exact scanBody_cutShort visibility [] (afterOpenBrace rest) _

/-- Where reading stops at the closing brace, the body gives the same methods whatever follows. -/
theorem exists_of_stopsAtBrace {visibility : String} {tokens : List Token}
    (stops : stopsAtBrace visibility tokens) :
    ∃ head rest, findHead [] (significant tokens) = some (head, rest) ∧
      ∀ more, methodsFrom visibility [] (afterOpenBrace (rest ++ more)) =
        methodsFrom visibility [] (afterOpenBrace rest) := by
  rw [stopsAtBrace] at stops
  cases found : findHead [] (significant tokens) with
  | none =>
      rw [found] at stops
      exact absurd stops (by simp)
  | some p =>
      obtain ⟨head, rest⟩ := p
      rw [found] at stops
      refine ⟨head, rest, rfl, ?_⟩
      intro more
      have left : (scanBody visibility [] (afterOpenBrace rest)).2 ≠ [] := by
        intro none
        simp [none] at stops
      have body : afterOpenBrace rest ≠ [] := ne_nil_of_left (by rw [scanBody]) left
      have same := looksNoFurther_scanBody visibility [] (afterOpenBrace rest) more left
      rw [afterOpenBrace_append more body, ← fst_scanBody, ← fst_scanBody, same]

/-- Once the closing brace of the class has been read, what follows does not matter. -/
theorem read_append_of_stopsAtBrace {visibility : String} {tokens : List Token}
    (more : List Token) (stops : stopsAtBrace visibility tokens) :
    read visibility (tokens ++ more) = read visibility tokens := by
  obtain ⟨head, rest, found, same⟩ := exists_of_stopsAtBrace stops
  have whole := findHead_append (significantFrom tokens.length more) found
  rw [read, read, significant_append, whole, found]
  simp only [same]

/-- An initial part of the tokens of a class, well formed or not, is read as a part of the class:
all that was read stands in the whole, and only the last method can be incomplete. Where reading
stops at the closing brace of the class, the whole has been read. -/
theorem read_isCutOf_of_isPrefix (visibility : String) {part whole : List Token}
    (cut : part <+: whole) :
    (read visibility part).IsCutOf (read visibility whole) ∧
      (stopsAtBrace visibility part → read visibility part = read visibility whole) := by
  obtain ⟨more, rfl⟩ := cut
  constructor
  · exact read_append_isCutOf visibility part more
  · intro stops
    exact (read_append_of_stopsAtBrace more stops).symm

/-- The abstract class cut inside the default of a parameter, and cut after its closing brace. -/
theorem read_isCutOf_of_isPrefix_figureClass :
    (figureSource.take 50 <+: figureSource ∧
      (read "public" (figureSource.take 50)).IsCutOf (read "public" figureSource)) ∧
    figureSource.dropLast <+: figureSource ∧ stopsAtBrace "public" figureSource.dropLast ∧
      read "public" figureSource.dropLast = read "public" figureSource := by
  have inside : figureSource.take 50 <+: figureSource := List.take_prefix _ _
  have behind : figureSource.dropLast <+: figureSource := List.dropLast_prefix _
  have stops : stopsAtBrace "public" figureSource.dropLast := by decide +kernel
  exact ⟨⟨inside, (read_isCutOf_of_isPrefix "public" inside).1⟩, behind, stops,
    (read_isCutOf_of_isPrefix "public" behind).2 stops⟩

example : (read "public" (figureSource.take 50)).methods.map (fun m => (m.name,
    m.parameters.map fun p => (p.name, p.default))) =
      [("area", [(some "$side", some "max(1")])] := by
  decide +kernel

end ClassShape

end RenderTrace
