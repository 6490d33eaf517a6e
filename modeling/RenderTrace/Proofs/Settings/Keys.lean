import Mathlib.Tactic.Choose
import RenderTrace.Proofs.Settings

/-!
# Settings key by key

Settings are read from eight keys, five of them below `views`. What a key sets depends on
the value under it alone: the settings can be used exactly when every key can on its own,
each field is the one its own key gives, and a key that is absent leaves its field as
usual, seen from the root.
-/

namespace RenderTrace.Settings

/-- A key of a settings document. -/
inductive Key where
  | paths
  | namespaces
  | extensions
  | suffix
  | maxDepth
  | renderCalls
  | directives
  | defaultVisibility
deriving DecidableEq

/-- The entry has the given text as its key. -/
def hasKey (word : String) : Value × Value → Bool
  | (.text k, _) => k == word
  | _ => false

/-- The entries with the given text as their key. -/
def keep (word : String) (entries : List (Value × Value)) : List (Value × Value) :=
  entries.filter (hasKey word)

/-- The mapping with the entries that have the given text as their key. -/
def keepBelow (word : String) : Value → Value
  | .mapping entries => .mapping (keep word entries)
  | v => v

/-- The entries of the mapping under `views`. -/
def viewsOf (raw : List (Value × Value)) : List (Value × Value) :=
  match Value.lookup? "views" raw with
  | some (.mapping views) => views
  | _ => []

/-- There is nothing under `views` or a mapping. -/
def ViewsMapped (raw : List (Value × Value)) : Prop :=
  ∀ v, Value.lookup? "views" raw = some v → ∃ views, v = .mapping views

namespace Key

/-- The key as it is written. -/
def word : Key → String
  | paths => "paths"
  | namespaces => "namespaces"
  | extensions => "extensions"
  | suffix => "suffix"
  | maxDepth => "max_depth"
  | renderCalls => "render_calls"
  | directives => "directives"
  | defaultVisibility => "default_visibility"

/-- The key stands in the mapping under `views`. -/
def isBelowViews : Key → Bool
  | paths | namespaces | extensions | suffix | maxDepth => true
  | renderCalls | directives | defaultVisibility => false

/-- The value under the key. -/
def value? (key : Key) (raw : List (Value × Value)) : Option Value :=
  Value.lookup? key.word (if key.isBelowViews then viewsOf raw else raw)

/-- The entries with all keys but one left out. -/
def only (key : Key) (raw : List (Value × Value)) : List (Value × Value) :=
  if key.isBelowViews then (keep "views" raw).map fun e => (e.1, keepBelow key.word e.2)
  else keep key.word raw

/-- What the key sets. -/
abbrev Field : Key → Type
  | paths => List Path
  | namespaces => List (String × List Path)
  | extensions => List String
  | suffix => String
  | maxDepth => Int
  | renderCalls | directives => List Directive
  | defaultVisibility => Visibility

/-- Reads what the key sets. -/
def read (root : Path) (raw : List (Value × Value)) : (key : Key) → Except Error key.Field
  | paths => viewPathsOf root (viewsOf raw)
  | namespaces => viewNamespacesOf root (viewsOf raw)
  | extensions => viewExtensionsOf (viewsOf raw)
  | suffix => templateSuffixOf (viewsOf raw)
  | maxDepth => maxDepthOf (viewsOf raw)
  | renderCalls => directivesOf "render_calls" Directive.renderCalls raw
  | directives => directivesOf "directives" Directive.inclusions raw
  | defaultVisibility => defaultVisibilityOf raw

end Key

/-- The field that a key sets. -/
def field (s : Settings) : (key : Key) → key.Field
  | .paths => s.viewPaths
  | .namespaces => s.viewNamespaces
  | .extensions => s.viewExtensions
  | .suffix => s.templateSuffix
  | .maxDepth => s.maxDepth
  | .renderCalls => s.renderCalls
  | .directives => s.directives
  | .defaultVisibility => s.defaultVisibility

/-- The settings with the given fields. -/
def ofFields (f : (key : Key) → key.Field) : Settings where
  viewPaths := f .paths
  viewNamespaces := f .namespaces
  viewExtensions := f .extensions
  templateSuffix := f .suffix
  maxDepth := f .maxDepth
  renderCalls := f .renderCalls
  directives := f .directives
  defaultVisibility := f .defaultVisibility

theorem field_ofFields (f : (key : Key) → key.Field) (key : Key) : (ofFields f).field key = f key := by
  cases key <;> rfl

variable {root : Path} {raw other : List (Value × Value)}

theorem entriesOf_views (mapped : ViewsMapped raw) :
    entriesOf .viewsNoMapping (Value.lookup? "views" raw) = .ok (viewsOf raw) := by
  cases found : Value.lookup? "views" raw with
  | none =>
      rw [viewsOf, found]
      rfl
  | some v =>
      obtain ⟨views, rfl⟩ := mapped v found
      rw [viewsOf, found]
      cases views <;> rfl

/-- Entries spell the settings whose every field is what its key gives. -/
theorem ofEntries_eq_ok_iff (mapped : ViewsMapped raw) (s : Settings) :
    ofEntries root raw = .ok s ↔ ∀ key : Key, key.read root raw = .ok (s.field key) := by
  constructor
  · intro accepted
    obtain ⟨views, found, accepted⟩ := exists_of_bind_eq_ok accepted
    obtain rfl : viewsOf raw = views := Except.ok.inj ((entriesOf_views mapped).symm.trans found)
    obtain ⟨viewPaths, paths, accepted⟩ := exists_of_bind_eq_ok accepted
    obtain ⟨viewNamespaces, namespaces, accepted⟩ := exists_of_bind_eq_ok accepted
    obtain ⟨viewExtensions, extensions, accepted⟩ := exists_of_bind_eq_ok accepted
    obtain ⟨templateSuffix, suffix, accepted⟩ := exists_of_bind_eq_ok accepted
    obtain ⟨maxDepth, depth, accepted⟩ := exists_of_bind_eq_ok accepted
    obtain ⟨renderCalls, calls, accepted⟩ := exists_of_bind_eq_ok accepted
    obtain ⟨directives, inclusions, accepted⟩ := exists_of_bind_eq_ok accepted
    obtain ⟨defaultVisibility, visibility, accepted⟩ := exists_of_bind_eq_ok accepted
    cases accepted
    intro key
    cases key <;> assumption
  · intro each
    have paths := each .paths
    have namespaces := each .namespaces
    have extensions := each .extensions
    have suffix := each .suffix
    have depth := each .maxDepth
    have calls := each .renderCalls
    have inclusions := each .directives
    have visibility := each .defaultVisibility
    simp only [Key.read] at paths namespaces extensions suffix depth calls inclusions visibility
    simp only [ofEntries, entriesOf_views mapped, bind, Except.bind, paths, namespaces, extensions,
      suffix, depth, calls, inclusions, visibility]
    rfl

/-- The settings can be used when every key can. -/
theorem exists_ofEntries_iff (mapped : ViewsMapped raw) :
    (∃ s, ofEntries root raw = .ok s) ↔ ∀ key : Key, ∃ a, key.read root raw = .ok a := by
  constructor
  · rintro ⟨s, accepted⟩ key
    exact ⟨s.field key, (ofEntries_eq_ok_iff mapped s).mp accepted key⟩
  · intro each
    choose f reads using each
    refine ⟨ofFields f, (ofEntries_eq_ok_iff mapped _).mpr fun key => ?_⟩
    rw [field_ofFields, reads key]

/-! ## What a key depends on -/

/-- What a key sets depends on the value under it alone. -/
theorem read_congr {key : Key} (same : key.value? raw = key.value? other) :
    key.read root raw = key.read root other := by
  cases key <;>
    simp only [Key.value?, Key.word, Key.isBelowViews, Bool.false_eq_true, if_false, if_true]
      at same <;>
    simp only [Key.read, viewPathsOf, viewNamespacesOf, viewExtensionsOf, templateSuffixOf,
      maxDepthOf, directivesOf, defaultVisibilityOf, same]

/-- A key that is absent leaves its field as usual. -/
theorem read_of_absent {key : Key} (absent : key.value? raw = none) :
    key.read root raw = .ok ((usualFrom root).field key) := by
  have nothing : key.value? raw = key.value? [] := by
    rw [absent]
    cases key <;> rfl
  rw [read_congr nothing]
  cases key <;> rfl

/-! ## One key alone -/

theorem lookup?_eq_find? (word : String) (entries : List (Value × Value)) :
    Value.lookup? word entries = (entries.find? (hasKey word)).map (·.2) := by
  fun_induction Value.lookup? word entries with
  | case1 => rfl
  | case2 v rest => rw [List.find?_cons_of_pos (by simp [hasKey]), Option.map_some]
  | case3 k v rest other ih => rw [List.find?_cons_of_neg (by simpa [hasKey] using other), ih]
  | case4 rest first other ih => rw [List.find?_cons_of_neg (by simp [hasKey]), ih]

theorem eq_of_hasKey {a b : String} {e : Value × Value} (first : hasKey a e) (second : hasKey b e) :
    a = b := by
  obtain ⟨k, v⟩ := e
  cases k with
  | text k => exact (beq_iff_eq.mp first).symm.trans (beq_iff_eq.mp second)
  | _ => exact absurd first Bool.false_ne_true

theorem lookup?_keep (word name : String) (entries : List (Value × Value)) :
    Value.lookup? name (keep word entries) =
      if name = word then Value.lookup? name entries else none := by
  rw [lookup?_eq_find?, lookup?_eq_find?, keep, List.find?_filter]
  split
  next own =>
    subst own
    simp only [and_self, Bool.decide_eq_true]
  next other =>
    rw [Option.map_eq_none_iff, List.find?_eq_none]
    intro e _ both
    obtain ⟨kept, asked⟩ := of_decide_eq_true both
    exact other (eq_of_hasKey asked kept)

theorem lookup?_map (word : String) (f : Value → Value) (entries : List (Value × Value)) :
    Value.lookup? word (entries.map fun e => (e.1, f e.2)) = (Value.lookup? word entries).map f := by
  have same : (hasKey word ∘ fun e => (e.1, f e.2)) = hasKey word := by
    funext ⟨k, v⟩
    cases k <;> rfl
  rw [lookup?_eq_find?, lookup?_eq_find?, List.find?_map, same, Option.map_map, Option.map_map]
  rfl

theorem eq_of_word_eq {key other : Key} (same : other.word = key.word) : other = key := by
  cases key <;> cases other <;> simp_all [Key.word]

theorem word_ne_views (key : Key) : key.word ≠ "views" := by
  cases key <;> decide

/-- Leaving out all keys below `views` but one leaves out all entries there but its own. -/
theorem viewsOf_only {key : Key} (below : key.isBelowViews) :
    viewsOf (key.only raw) = keep key.word (viewsOf raw) := by
  have kept : Value.lookup? "views" (key.only raw) =
      (Value.lookup? "views" raw).map (keepBelow key.word) := by
    rw [Key.only, if_pos below, lookup?_map, lookup?_keep, if_pos rfl]
  rw [viewsOf, viewsOf, kept]
  cases Value.lookup? "views" raw with
  | none => rfl
  | some v => cases v <;> rfl

/-- With all keys but one left out no other has a value. -/
theorem value?_only_of_ne {key other : Key} (apart : other ≠ key) :
    other.value? (key.only raw) = none := by
  have words : other.word ≠ key.word := fun same => apart (eq_of_word_eq same)
  rw [Key.value?]
  split
  next otherBelow =>
    cases below : key.isBelowViews with
    | true => rw [viewsOf_only below, lookup?_keep, if_neg words]
    | false =>
        have nothing : viewsOf (key.only raw) = [] := by
          rw [Key.only, below, if_neg Bool.false_ne_true, viewsOf, lookup?_keep,
            if_neg (word_ne_views key).symm]
        rw [nothing, Value.lookup?]
  next =>
    rw [Key.only]
    split
    · rw [lookup?_map, lookup?_keep, if_neg (word_ne_views other), Option.map_none]
    · rw [lookup?_keep, if_neg words]

/-- With all other keys left out a key has its value still. -/
theorem value?_only (key : Key) (raw : List (Value × Value)) :
    key.value? (key.only raw) = key.value? raw := by
  rw [Key.value?, Key.value?]
  split
  next below => rw [viewsOf_only below, lookup?_keep, if_pos rfl]
  next notBelow => rw [Key.only, if_neg notBelow, lookup?_keep, if_pos rfl]

theorem viewsMapped_only (mapped : ViewsMapped raw) (key : Key) : ViewsMapped (key.only raw) := by
  intro v found
  rw [Key.only] at found
  split at found
  · rw [lookup?_map, lookup?_keep, if_pos rfl] at found
    obtain ⟨outer, there, rfl⟩ := Option.map_eq_some_iff.mp found
    obtain ⟨views, rfl⟩ := mapped outer there
    exact ⟨_, rfl⟩
  · rw [lookup?_keep, if_neg (word_ne_views key).symm] at found
    exact absurd found nofun

/-- One key alone spells the settings that have its field and all others as usual. -/
theorem ofEntries_only_iff (mapped : ViewsMapped raw) (key : Key) (t : Settings) :
    ofEntries root (key.only raw) = .ok t ↔ key.read root raw = .ok (t.field key) ∧
      ∀ other, other ≠ key → t.field other = (usualFrom root).field other := by
  have own : key.read root (key.only raw) = key.read root raw := read_congr (value?_only key raw)
  rw [ofEntries_eq_ok_iff (viewsMapped_only mapped key)]
  constructor
  · intro each
    refine ⟨own.symm.trans (each key), fun other apart => ?_⟩
    have usual : other.read root (key.only raw) = .ok ((usualFrom root).field other) :=
      read_of_absent (value?_only_of_ne apart)
    exact Except.ok.inj ((each other).symm.trans usual)
  · rintro ⟨reads, usual⟩ other
    by_cases same : other = key
    · subst same
      exact own.trans reads
    · rw [usual other same]
      exact read_of_absent (value?_only_of_ne same)

theorem exists_ofEntries_only_iff (mapped : ViewsMapped raw) (key : Key) :
    (∃ t, ofEntries root (key.only raw) = .ok t) ↔ ∃ a, key.read root raw = .ok a := by
  have own : key.read root (key.only raw) = key.read root raw := read_congr (value?_only key raw)
  rw [exists_ofEntries_iff (viewsMapped_only mapped key)]
  constructor
  · intro each
    rw [← own]
    exact each key
  · rintro ⟨a, reads⟩ other
    by_cases same : other = key
    · subst same
      exact ⟨a, own.trans reads⟩
    · exact ⟨_, read_of_absent (value?_only_of_ne same)⟩

/-- Keys are independent of one another: the entries can be used exactly when each of the eight keys
can with all others left out, and every field is then the one that its own key gives alone. So
entries that differ under one key differ in no other field, and a key that is absent leaves its
field as usual, seen from the root. -/
theorem ofEntries_keywise (root : Path) {raw : List (Value × Value)} (mapped : ViewsMapped raw) :
    ((∃ s, ofEntries root raw = .ok s) ↔
      ∀ key : Key, ∃ t, ofEntries root (key.only raw) = .ok t) ∧
    ∀ s, ofEntries root raw = .ok s →
      (∀ (key : Key) (t : Settings), ofEntries root (key.only raw) = .ok t →
        s.field key = t.field key) ∧
      (∀ (changed : Key) (other : List (Value × Value)) (t : Settings), ViewsMapped other →
        (∀ key : Key, key ≠ changed → key.value? other = key.value? raw) →
        ofEntries root other = .ok t →
        ∀ key : Key, key ≠ changed → t.field key = s.field key) ∧
      ∀ key : Key, key.value? raw = none → s.field key = (usualFrom root).field key := by
  constructor
  · rw [exists_ofEntries_iff mapped]
    exact forall_congr' fun key => (exists_ofEntries_only_iff mapped key).symm
  · intro s accepted
    have reads := (ofEntries_eq_ok_iff mapped s).mp accepted
    refine ⟨fun key t alone => ?_, fun changed other t otherMapped same otherAccepted key apart => ?_,
      fun key absent => ?_⟩
    · obtain ⟨own, _⟩ := (ofEntries_only_iff mapped key t).mp alone
      exact Except.ok.inj ((reads key).symm.trans own)
    · have own := (ofEntries_eq_ok_iff otherMapped t).mp otherAccepted key
      rw [read_congr (same key apart), reads key] at own
      exact (Except.ok.inj own).symm
    · exact Except.ok.inj ((reads key).symm.trans (read_of_absent absent))

/-- Entries that set a folder and a depth below `views`, and a visibility. -/
def smallDocument : List (Value × Value) :=
  [(.text "default_visibility", .text "private"),
    (.text "views", .mapping [(.text "max_depth", .bool true), (.text "paths", .text "src")])]

/-- The same entries without the depth. -/
def depthlessDocument : List (Value × Value) :=
  [(.text "views", .mapping [(.text "paths", .text "src")]),
    (.text "default_visibility", .text "private")]

/-- The settings that the entries without a depth spell. -/
def depthlessSettings : Settings :=
  { usualFrom appFolder with
    viewPaths := [⟨.relative, ["app", "src"]⟩]
    defaultVisibility := .privateAccess }

theorem ofEntries_depthlessDocument :
    ofEntries appFolder depthlessDocument = .ok depthlessSettings := rfl

theorem ofEntries_smallDocument :
    ofEntries appFolder smallDocument = .ok { depthlessSettings with maxDepth := 1 } := rfl

theorem ofEntries_keywise_smallDocument :
    ViewsMapped smallDocument ∧ ViewsMapped depthlessDocument ∧
      (∀ key : Key, ∃ t, ofEntries appFolder (key.only smallDocument) = .ok t) ∧
      (∀ key : Key, key ≠ .maxDepth →
        depthlessSettings.field key = { depthlessSettings with maxDepth := 1 }.field key) ∧
      { depthlessSettings with maxDepth := 1 }.field .suffix =
        (usualFrom appFolder).field .suffix := by
  have mapped : ViewsMapped smallDocument := by
    rintro _ ⟨⟩
    exact ⟨_, rfl⟩
  have depthlessMapped : ViewsMapped depthlessDocument := by
    rintro _ ⟨⟩
    exact ⟨_, rfl⟩
  have same : ∀ key : Key, key ≠ .maxDepth →
      key.value? depthlessDocument = key.value? smallDocument := by
    intro key apart
    cases key with
    | maxDepth => exact absurd rfl apart
    | _ => rfl
  obtain ⟨accepted, fields⟩ := ofEntries_keywise appFolder mapped
  obtain ⟨_, independent, absent⟩ := fields _ ofEntries_smallDocument
  exact ⟨mapped, depthlessMapped, accepted.mp ⟨_, ofEntries_smallDocument⟩,
    independent .maxDepth depthlessDocument _ depthlessMapped same ofEntries_depthlessDocument,
    absent .suffix rfl⟩

end RenderTrace.Settings
