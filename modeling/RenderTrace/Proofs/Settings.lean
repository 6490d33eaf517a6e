import RenderTrace.Settings

/-!
# Why settings are refused

Every key of a settings document passes its own chain of checks, and each chain
fails in its own ways. What a key can fail with is traced back to the value under
it: either the error is one the user is told of, or the value holds an integer that
is too long to be written, or it is an infinite depth.
-/

namespace RenderTrace

/-! ## Computations that may fail -/

/-- A computation that gives a result gave one before, from which it went on. -/
theorem exists_of_bind_eq_ok {ε α β : Type} {first : Except ε α} {next : α → Except ε β} {b : β}
    (read : first >>= next = .ok b) : ∃ a, first = .ok a ∧ next a = .ok b := by
  cases first with
  | error e => cases read
  | ok a => exact ⟨a, rfl, read⟩

/-- Every error that the computation ends in has the property. -/
def FailsOnly {ε α : Type} (P : ε → Prop) (result : Except ε α) : Prop :=
  ∀ e, result = .error e → P e

namespace FailsOnly

variable {ε α β : Type} {P Q : ε → Prop}

theorem ok (a : α) : FailsOnly P (.ok a) :=
  nofun

theorem error {e : ε} (holds : P e) : FailsOnly P (.error e : Except ε α) := by
  rintro _ ⟨⟩
  exact holds

theorem mono {result : Except ε α} (fails : FailsOnly P result) (weaker : ∀ e, P e → Q e) :
    FailsOnly Q result :=
  fun e failed => weaker e (fails e failed)

theorem bind {first : Except ε α} {next : α → Except ε β} (fails : FailsOnly P first)
    (others : ∀ a, first = .ok a → FailsOnly P (next a)) : FailsOnly P (first >>= next) := by
  cases first with
  | error e => exact error (fails e rfl)
  | ok a => exact others a rfl

theorem map {result : Except ε α} (f : α → β) (fails : FailsOnly P result) :
    FailsOnly P (result.map f) := by
  cases result with
  | error e => exact error (fails e rfl)
  | ok a => exact ok (f a)

theorem mapM {f : α → Except ε β} {as : List α} (each : ∀ a ∈ as, FailsOnly P (f a)) :
    FailsOnly P (as.mapM f) := by
  induction as with
  | nil => exact ok []
  | cons a as ih =>
      rw [List.mapM_cons]
      refine bind (each a List.mem_cons_self) fun b _ => ?_
      exact bind (ih fun a' mem => each a' (List.mem_cons_of_mem a mem)) fun bs _ => ok (b :: bs)

end FailsOnly

/-! ## Values inside values -/

namespace Value

theorem isShowable_of_mem_items {v : Value} {items : List Value} (mem : v ∈ items)
    (showable : (list items).isShowable) : v.isShowable := by
  rw [isShowable] at showable
  induction items with
  | nil => exact absurd mem List.not_mem_nil
  | cons first items ih =>
      rw [itemsShowable, Bool.and_eq_true] at showable
      rcases List.mem_cons.mp mem with rfl | later
      · exact showable.1
      · exact ih later showable.2

theorem isShowable_of_mem_entries {k v : Value} {entries : List (Value × Value)}
    (mem : (k, v) ∈ entries) (showable : (mapping entries).isShowable) :
    k.isShowable ∧ v.isShowable := by
  rw [isShowable] at showable
  induction entries with
  | nil => exact absurd mem List.not_mem_nil
  | cons first entries ih =>
      obtain ⟨k', v'⟩ := first
      rw [entriesShowable, Bool.and_eq_true, Bool.and_eq_true] at showable
      rcases List.mem_cons.mp mem with here | later
      · obtain ⟨rfl, rfl⟩ := Prod.mk.inj here
        exact showable.1
      · exact ih later showable.2

theorem mem_of_lookup? {key : String} {v : Value} {entries : List (Value × Value)}
    (found : lookup? key entries = some v) : (text key, v) ∈ entries := by
  fun_induction lookup? key entries with
  | case1 => exact absurd found nofun
  | case2 v' rest =>
      obtain rfl : v' = v := Option.some.inj found
      exact List.mem_cons_self
  | case3 k v' rest other ih => exact List.mem_cons_of_mem _ (ih found)
  | case4 rest first other ih => exact List.mem_cons_of_mem _ (ih found)

/-- An infinite number. -/
def IsInfinite (v : Value) : Prop :=
  ∃ x negative, v = float x ∧ Decimal.Binary.ofFloat x = .infinite negative

end Value

namespace Settings

/-! ## What a value can be refused for -/

/-- The error is one the user is told of, or an integer in the value is too long to be written. -/
def Explains (v : Value) (e : Error) : Prop :=
  e.isReported ∨ e = .longNumeral ∧ v.isShowable = false

theorem Explains.of_inner {v outer : Value} {e : Error}
    (inside : outer.isShowable → v.isShowable) (explains : Explains v e) : Explains outer e := by
  rcases explains with reported | ⟨rfl, long⟩
  · exact .inl reported
  · refine .inr ⟨rfl, ?_⟩
    cases showable : outer.isShowable with
    | false => rfl
    | true => rw [inside showable] at long; exact absurd long nofun

theorem Explains.of_lookup? {key : String} {v : Value} {entries : List (Value × Value)} {e : Error}
    (found : Value.lookup? key entries = some v) (explains : Explains v e) :
    Explains (.mapping entries) e :=
  explains.of_inner fun showable =>
    (Value.isShowable_of_mem_entries (Value.mem_of_lookup? found) showable).2

theorem textOf_failsOnly (v : Value) : FailsOnly (Explains v) (textOf v) := by
  rw [textOf, Value.bare?]
  cases showable : v.isShowable with
  | true => exact .ok v.bare
  | false => exact .error (.inr ⟨rfl, showable⟩)

theorem itemsOf_failsOnly (location : String) (v : Value) :
    FailsOnly (Explains v) (itemsOf location v) := by
  cases v with
  | text s => exact .ok _
  | int n => exact .ok _
  | bool b => exact .ok _
  | list items => exact .ok _
  | null => exact .error (.inl rfl)
  | float x => exact .error (.inl rfl)
  | mapping entries => exact .error (.inl rfl)

/-- What is listed is no longer than the list. -/
theorem isShowable_of_mem_itemsOf {location : String} {v item : Value} {items : List Value}
    (listed : itemsOf location v = .ok items) (mem : item ∈ items) (showable : v.isShowable) :
    item.isShowable := by
  cases v with
  | text s =>
      cases listed
      rw [List.mem_singleton.mp mem]
      exact showable
  | int n =>
      cases listed
      rw [List.mem_singleton.mp mem]
      exact showable
  | bool b =>
      cases listed
      rw [List.mem_singleton.mp mem]
      exact showable
  | list items' =>
      cases listed
      exact Value.isShowable_of_mem_items mem showable
  | null => cases listed
  | float x => cases listed
  | mapping entries => cases listed

/-- A list is refused for one of its items. -/
theorem listed_failsOnly {α : Type} {f : Value → Except Error α}
    (each : ∀ item, FailsOnly (Explains item) (f item)) (location : String) (v : Value) :
    FailsOnly (Explains v) (do let items ← itemsOf location v; items.mapM f) := by
  refine .bind (itemsOf_failsOnly location v) fun items listed => .mapM fun item mem => ?_
  exact (each item).mono fun e => Explains.of_inner (isShowable_of_mem_itemsOf listed mem)

theorem pathsOf_failsOnly (root : Path) (location : String) (v : Value) :
    FailsOnly (Explains v) (pathsOf root location v) :=
  listed_failsOnly (fun item => (textOf_failsOnly item).map _) location v

theorem eq_nil_or_mapping_of_entriesOf {error : Error} {o : Option Value}
    {entries : List (Value × Value)} (read : entriesOf error o = .ok entries) :
    entries = [] ∨ o = some (.mapping entries) := by
  cases o with
  | none =>
      cases read
      exact .inl rfl
  | some v =>
      rw [entriesOf.eq_def] at read
      simp only at read
      split at read
      · cases read
        exact .inl rfl
      · split at read
        · cases read
          exact .inr rfl
        · cases read

/-- The entries of an optional mapping hold nothing that is not below the outer one. -/
theorem isShowable_of_entriesOf {error : Error} {key : String}
    {outer entries : List (Value × Value)}
    (read : entriesOf error (Value.lookup? key outer) = .ok entries)
    (showable : (Value.mapping outer).isShowable) : (Value.mapping entries).isShowable := by
  rcases eq_nil_or_mapping_of_entriesOf read with rfl | found
  · rfl
  · exact (Value.isShowable_of_mem_entries (Value.mem_of_lookup? found) showable).2

theorem entriesOf_failsOnly {error : Error} {v : Value} (reported : error.isReported)
    (o : Option Value) : FailsOnly (Explains v) (entriesOf error o) := by
  rw [entriesOf.eq_def]
  split
  · exact .ok []
  · split
    · exact .ok []
    · split
      · exact .ok _
      · exact .error (.inl reported)

/-! ## The keys below `views` -/

section Views

variable (root : Path) (views : List (Value × Value))

theorem viewPathsOf_failsOnly : FailsOnly (Explains (.mapping views)) (viewPathsOf root views) := by
  rw [viewPathsOf]
  split
  · exact .ok _
  next v found => exact (pathsOf_failsOnly root _ v).mono fun e => Explains.of_lookup? found

theorem viewNamespacesOf_failsOnly :
    FailsOnly (Explains (.mapping views)) (viewNamespacesOf root views) := by
  refine .bind (entriesOf_failsOnly rfl _) fun entries read => ?_
  refine .bind (.mapM fun entry mem => ?_) fun pairs _ => .ok _
  have inside : (Value.mapping views).isShowable → entry.1.isShowable ∧ entry.2.isShowable :=
    fun showable => Value.isShowable_of_mem_entries mem (isShowable_of_entriesOf read showable)
  refine .bind ((textOf_failsOnly entry.1).mono fun e =>
    Explains.of_inner fun showable => (inside showable).1) fun ns _ => ?_
  refine .bind ((pathsOf_failsOnly root _ entry.2).mono fun e =>
    Explains.of_inner fun showable => (inside showable).2) fun paths _ => .ok _

theorem viewExtensionsOf_failsOnly :
    FailsOnly (Explains (.mapping views)) (viewExtensionsOf views) := by
  rw [viewExtensionsOf]
  split
  · exact .ok _
  next v found =>
    exact (listed_failsOnly (fun item => (textOf_failsOnly item).map _) _ v).mono fun e =>
      Explains.of_lookup? found

theorem templateSuffixOf_failsOnly :
    FailsOnly (Explains (.mapping views)) (templateSuffixOf views) := by
  rw [templateSuffixOf]
  split
  · exact .ok _
  next v found => exact (textOf_failsOnly v).mono fun e => Explains.of_lookup? found

/-- Besides what holds of every value, a depth can be refused for being infinite. -/
theorem depthOf_failsOnly (v : Value) :
    FailsOnly (fun e => Explains v e ∨ e = .depthInfinite ∧ v.IsInfinite) (depthOf v) := by
  have refused (v : Value) :
      Explains v (if v.isShowable then .depthNoInteger v else .longNumeral) := by
    cases showable : v.isShowable with
    | true => exact .inl rfl
    | false => exact .inr ⟨rfl, showable⟩
  cases v with
  | int n => exact .ok n
  | bool b => exact .ok _
  | float x =>
      rw [depthOf]
      split
      · exact .error (.inl (.inl rfl))
      next negative infinite => exact .error (.inr ⟨rfl, x, negative, rfl, infinite⟩)
      · exact .ok _
  | text s =>
      rw [depthOf]
      split
      · exact .ok _
      · exact .error (.inl (.inl rfl))
  | null => exact .error (.inl (refused .null))
  | list items => exact .error (.inl (refused (.list items)))
  | mapping entries => exact .error (.inl (refused (.mapping entries)))

theorem maxDepthOf_failsOnly :
    FailsOnly (fun e => Explains (.mapping views) e ∨
      e = .depthInfinite ∧ ∃ v, Value.lookup? "max_depth" views = some v ∧ v.IsInfinite)
      (maxDepthOf views) := by
  rw [maxDepthOf]
  split
  · exact .ok _
  next v found =>
    refine (depthOf_failsOnly v).mono fun e => ?_
    rintro (explains | ⟨rfl, infinite⟩)
    · exact .inl (explains.of_lookup? found)
    · exact .inr ⟨rfl, v, found, infinite⟩

end Views

/-! ## The other keys -/

/-- What is wrong with a directive is always told, with the key it stands under. -/
theorem directivesOf_failsOnly (key : String) (usual : List Directive)
    (raw : List (Value × Value)) :
    FailsOnly (Explains (.mapping raw)) (directivesOf key usual raw) := by
  rw [directivesOf]
  split
  · exact .ok _
  next v found =>
    refine (listed_failsOnly (fun item => ?_) key v).mono fun e => Explains.of_lookup? found
    cases Directive.ofValue item with
    | ok d => exact .ok d
    | error cause => exact .error (.inl rfl)

theorem defaultVisibilityOf_failsOnly (raw : List (Value × Value)) :
    FailsOnly (Explains (.mapping raw)) (defaultVisibilityOf raw) := by
  rw [defaultVisibilityOf]
  split
  · exact .ok _
  next v found =>
    refine .bind ((textOf_failsOnly v).mono fun e => Explains.of_lookup? found) fun word _ => ?_
    split
    · exact .ok _
    · exact .error (.inl rfl)

/-- The entries ask for an infinite depth. -/
def AsksInfiniteDepth (raw : List (Value × Value)) : Prop :=
  ∃ views v, Value.lookup? "views" raw = some (.mapping views) ∧
    Value.lookup? "max_depth" views = some v ∧ v.IsInfinite

/-- Why entries can be refused. -/
theorem ofEntries_failsOnly (root : Path) (raw : List (Value × Value)) :
    FailsOnly (fun e => Explains (.mapping raw) e ∨ e = .depthInfinite ∧ AsksInfiniteDepth raw)
      (ofEntries root raw) := by
  have below {views : List (Value × Value)}
      (read : entriesOf .viewsNoMapping (Value.lookup? "views" raw) = .ok views) (e : Error) :
      Explains (.mapping views) e → Explains (.mapping raw) e :=
    Explains.of_inner (isShowable_of_entriesOf read)
  refine .bind ((entriesOf_failsOnly rfl _).mono fun e => .inl) fun views read => ?_
  refine .bind ((viewPathsOf_failsOnly root views).mono fun e told => .inl (below read e told))
    fun _ _ => ?_
  refine .bind ((viewNamespacesOf_failsOnly root views).mono fun e told => .inl (below read e told))
    fun _ _ => ?_
  refine .bind ((viewExtensionsOf_failsOnly views).mono fun e told => .inl (below read e told))
    fun _ _ => ?_
  refine .bind ((templateSuffixOf_failsOnly views).mono fun e told => .inl (below read e told))
    fun _ _ => ?_
  refine .bind ((maxDepthOf_failsOnly views).mono fun e => ?_) fun _ _ => ?_
  · rintro (told | ⟨rfl, v, found, infinite⟩)
    · exact .inl (below read e told)
    · rcases eq_nil_or_mapping_of_entriesOf read with rfl | mapped
      · exact absurd found nofun
      · exact .inr ⟨rfl, views, v, mapped, found, infinite⟩
  refine .bind ((directivesOf_failsOnly _ _ raw).mono fun e => .inl) fun _ _ => ?_
  refine .bind ((directivesOf_failsOnly _ _ raw).mono fun e => .inl) fun _ _ => ?_
  exact .bind ((defaultVisibilityOf_failsOnly raw).mono fun e => .inl) fun _ _ => .ok _

/-! ## The usual settings -/

/-- The usual settings, their paths seen from the root. -/
def usualFrom (root : Path) : Settings :=
  { usual with viewPaths := usual.viewPaths.map root.join }

theorem ofEntries_nil (root : Path) : ofEntries root [] = .ok (usualFrom root) := rfl

/-- The folder of a project. -/
def appFolder : Path :=
  ⟨.relative, ["app"]⟩

end Settings

end RenderTrace
