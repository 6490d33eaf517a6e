import Mathlib.Data.List.TakeWhile
import RenderTrace.Proofs.Catalog.Indexed

/-!
# Looking a method up

A location that a catalog holds is found again by the full name of its class, with
or without a leading backslash, when the class stands in a namespace. The full name
of a class that stands in none is also a simple name: where a class in some namespace
has this simple name and a method of the same name, and was indexed before, the method
of that class is found instead.
-/

namespace RenderTrace

namespace Text

theorem mem_lowerFrom_backslash {before cs : List Char} (h : '\\' ∈ cs) :
    '\\' ∈ lowerFrom before cs := by
  induction cs generalizing before with
  | nil => exact absurd h List.not_mem_nil
  | cons c cs ih =>
      rw [lowerFrom, List.mem_append]
      rcases List.mem_cons.mp h with rfl | later
      · have kept : lowerChar '\\' = '\\' := by decide
        rw [if_neg (by decide), if_neg (by decide), kept]
        exact Or.inl List.mem_cons_self
      · exact Or.inr (ih later)

/-- Lower case keeps backslashes. -/
theorem mem_lower_backslash {s : String} (h : '\\' ∈ s.toList) : '\\' ∈ (lower s).toList := by
  rw [lower, String.toList_ofList]
  exact mem_lowerFrom_backslash h

end Text

namespace Catalog
open SourceTree

/-- The simple name of a class has no backslash. -/
theorem not_mem_simpleName (name : String) : '\\' ∉ (simpleName name).toList := by
  rw [simpleName, String.toList_ofList, List.mem_reverse]
  intro mem
  exact absurd (List.mem_takeWhile_imp mem) (by decide)

/-- A leading backslash does not matter to a look-up. -/
theorem locate_backslash (catalog : Catalog) (className method : String) :
    catalog.locate ("\\" ++ className) method = catalog.locate className method := by
  have same : ("\\" ++ className).toList.dropWhile (· == '\\') =
      className.toList.dropWhile (· == '\\') := by
    rw [String.toList_append]
    rfl
  rw [locate, locate, same]

/-- The simple name of the first class is the full name of the second, and the methods have one
name. -/
def Shadows (e l : MethodLocation) : Prop :=
  Text.lower e.method = Text.lower l.method ∧
    simpleName (Text.lower e.className) = Text.lower l.className

instance (e l : MethodLocation) : Decidable (Shadows e l) :=
  inferInstanceAs (Decidable (_ ∧ _))

/-- The full name of a class in a namespace is no simple name. -/
theorem not_shadows_of_mem_backslash {l : MethodLocation}
    (namespaced : '\\' ∈ l.className.toList) (e : MethodLocation) : ¬ Shadows e l := by
  rintro ⟨_, simple⟩
  have lowered := Text.mem_lower_backslash namespaced
  rw [← simple] at lowered
  exact not_mem_simpleName _ lowered

/-- The entry fits a look-up by the full name of the class of the location. -/
def fits (l : MethodLocation) (e : (String × String) × MethodLocation) : Bool :=
  e.1.2 == Text.lower l.method &&
    (e.1.1 == Text.lower l.className || simpleName e.1.1 == Text.lower l.className)

theorem locate_eq_find? {l : MethodLocation} (catalog : Catalog)
    (plain : l.className.toList.head? ≠ some '\\') :
    catalog.locate l.className l.method = (catalog.locations.find? (fits l)).map (·.2) := by
  have whole : l.className.toList.dropWhile (· == '\\') = l.className.toList := by
    cases equal : l.className.toList with
    | nil => rfl
    | cons c cs =>
        have other : (c == '\\') = false := by simpa [equal] using plain
        rw [List.dropWhile_cons, other, if_neg Bool.false_ne_true]
  rw [locate, whole, String.ofList_toList]
  rfl

theorem fits_iff {l : MethodLocation} {e : (String × String) × MethodLocation}
    (keyed : e.1 = locationKey e.2) :
    fits l e ↔ e.1 = locationKey l ∨ Shadows e.2 l := by
  simp only [fits, keyed, locationKey, Shadows, Prod.mk.injEq, Bool.and_eq_true, Bool.or_eq_true,
    beq_iff_eq]
  constructor
  · rintro ⟨method, owner | simple⟩
    · exact Or.inl ⟨owner, method⟩
    · exact Or.inr ⟨method, simple⟩
  · rintro (⟨owner, method⟩ | ⟨method, simple⟩)
    · exact ⟨method, Or.inl owner⟩
    · exact ⟨method, Or.inr simple⟩

/-- The entries before a location have other keys. -/
theorem WellKeyed.of_mem_before {catalog : Catalog} (wellKeyed : WellKeyed catalog)
    {before after : List ((String × String) × MethodLocation)} {key : String × String}
    {l : MethodLocation} (held : catalog.locations = before ++ (key, l) :: after) :
    ∀ e ∈ before, e.1 = locationKey e.2 ∧ e.1 ≠ locationKey l := by
  have keyed := wellKeyed.keyed
  have distinct := wellKeyed.nodup
  rw [held] at keyed
  rw [held, List.map_append, List.map_cons, List.nodup_append] at distinct
  have own : key = locationKey l := keyed (key, l) (by simp)
  intro e mem
  constructor
  · exact keyed e (List.mem_append_left _ mem)
  · rw [← own]
    exact distinct.2.2 e.1 (List.mem_map_of_mem mem) key List.mem_cons_self

/-- The first entry that fits a location is its own, unless an earlier one shadows it. -/
theorem find?_fits_iff {catalog : Catalog} (wellKeyed : WellKeyed catalog)
    {before after : List ((String × String) × MethodLocation)} {key : String × String}
    {l : MethodLocation} (held : catalog.locations = before ++ (key, l) :: after) :
    (catalog.locations.find? (fits l)).map (·.2) = some l ↔ ∀ e ∈ before, ¬ Shadows e.2 l := by
  have earlier := wellKeyed.of_mem_before held
  constructor
  · intro found e mem shadows
    have fit : fits l e := (fits_iff (earlier e mem).1).mpr (Or.inr shadows)
    obtain ⟨first, first_eq⟩ : ∃ first, before.find? (fits l) = some first :=
      Option.isSome_iff_exists.mp (List.find?_isSome.mpr ⟨e, mem, fit⟩)
    rw [held, List.find?_append, first_eq] at found
    have value : first.2 = l := Option.some.inj found
    obtain ⟨keyed, other⟩ := earlier first (List.mem_of_find?_eq_some first_eq)
    apply other
    rw [keyed, value]
  · intro unshadowed
    have none : before.find? (fits l) = none := by
      rw [List.find?_eq_none]
      intro e mem fit
      rcases (fits_iff (earlier e mem).1).mp fit with same | shadows
      · exact (earlier e mem).2 same
      · exact unshadowed e mem shadows
    have own : key = locationKey l := wellKeyed.keyed (key, l) (by simp [held])
    have fit : fits l (key, l) := (fits_iff own).mpr (Or.inl own)
    rw [held, List.find?_append, none, List.find?_cons_of_pos fit]
    rfl

/-- A location that is held is found again by the full name of its class, with or without a leading
backslash, exactly when no location before it has the full name of its class as a simple name. The
location of a class in a namespace always is. -/
theorem locate_held_iff (visibility : String) (sources : List IndexedSource)
    {before after : List ((String × String) × MethodLocation)} {key : String × String}
    {l : MethodLocation}
    (held : (ofSources visibility sources).locations = before ++ (key, l) :: after)
    (plain : l.className.toList.head? ≠ some '\\') :
    ((ofSources visibility sources).locate l.className l.method = some l ↔
        ∀ e ∈ before, ¬ Shadows e.2 l) ∧
      ((ofSources visibility sources).locate ("\\" ++ l.className) l.method = some l ↔
        ∀ e ∈ before, ¬ Shadows e.2 l) ∧
      ('\\' ∈ l.className.toList →
        (ofSources visibility sources).locate l.className l.method = some l ∧
          (ofSources visibility sources).locate ("\\" ++ l.className) l.method = some l) := by
  have byName : (ofSources visibility sources).locate l.className l.method = some l ↔
      ∀ e ∈ before, ¬ Shadows e.2 l := by
    rw [locate_eq_find? _ plain]
    exact find?_fits_iff (WellKeyed.ofSources visibility sources) held
  refine ⟨byName, ?_, ?_⟩
  · rw [locate_backslash]
    exact byName
  · intro namespaced
    have found := byName.mpr fun e _ => not_shadows_of_mem_backslash namespaced e.2
    exact ⟨found, (locate_backslash _ _ _).trans found⟩

/-- A class that stands in no namespace. -/
def plainFoo : IndexedSource :=
  .ofText "b.php" "<?php class Foo \x7b function f() \x7b\x7d \x7d"
    (Node.ofChildren "program" none [leafNode 0 "php_tag" 0 5, lineClassNode 0 [] 6 3 [idleNode 0 18] 35])

/-- A class of the same simple name in a namespace. -/
def namespacedFoo : IndexedSource :=
  .ofText "a.php" "<?php namespace App; class Foo \x7b function f() \x7b\x7d \x7d"
    (Node.ofChildren "program" none [leafNode 0 "php_tag" 0 5,
      Node.ofChildren "namespace_definition" none [leafNode 0 "namespace" 6 15,
        Node.ofChildren "namespace_name" (some "name") [leafNode 0 "name" 16 19], leafNode 0 ";" 19 20],
      lineClassNode 0 [] 21 3 [idleNode 0 33] 50])

theorem locate_held_iff_foo :
    (ofSources "public" [plainFoo, namespacedFoo]).locate "\\App\\Foo" "f" =
      some ⟨"App\\Foo", "f", "a.php", 1, 1⟩ := by
  have held : (ofSources "public" [plainFoo, namespacedFoo]).locations =
      [(("foo", "f"), ⟨"Foo", "f", "b.php", 1, 1⟩)] ++
        (("app\\foo", "f"), ⟨"App\\Foo", "f", "a.php", 1, 1⟩) :: [] := by
    decide +kernel
  exact ((locate_held_iff "public" [plainFoo, namespacedFoo] held (by decide)).2.2 (by decide)).2

/-- Indexed later, the class without a namespace is not found by its own full name. -/
theorem locate_plainFoo_shadowed :
    ¬ ∀ p ∈ (ofSources "public" [namespacedFoo, plainFoo]).locations,
      (ofSources "public" [namespacedFoo, plainFoo]).locate p.2.className p.2.method = some p.2 ∧
        (ofSources "public" [namespacedFoo, plainFoo]).locate ("\\" ++ p.2.className) p.2.method =
          some p.2 := by
  decide +kernel

end Catalog

end RenderTrace
