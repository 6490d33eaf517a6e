import Mathlib.Data.List.Basic
import Mathlib.Data.List.Induction
import RenderTrace.Keyed

/-!
# What a keyed list keeps

Keying pairs keeps every key, once and in the order in which the keys first came, and
gives it the last of the values that came with it.
-/

namespace RenderTrace.Keyed

variable {α β γ : Type} [DecidableEq α]

theorem mem_of_mem_put {key : α} {value : β} {kept : List (α × β)} {p : α × β}
    (h : p ∈ put key value kept) : p = (key, value) ∨ p ∈ kept := by
  induction kept with
  | nil =>
      rw [put, List.mem_singleton] at h
      exact Or.inl h
  | cons q rest ih =>
      obtain ⟨k, v⟩ := q
      rw [put] at h
      split at h
      next same =>
        subst same
        rcases List.mem_cons.mp h with rfl | old
        · exact Or.inl rfl
        · exact Or.inr (List.mem_cons_of_mem _ old)
      next other =>
        rcases List.mem_cons.mp h with rfl | later
        · exact Or.inr List.mem_cons_self
        · exact (ih later).imp_right (List.mem_cons_of_mem _)

theorem mem_keys_put {key other : α} {value : β} {kept : List (α × β)} :
    other ∈ (put key value kept).map (·.1) ↔ other = key ∨ other ∈ kept.map (·.1) := by
  rw [keys_put]
  by_cases present : key ∈ kept.map (·.1)
  · rw [if_pos present]
    constructor
    · exact Or.inr
    · rintro (rfl | old)
      · exact present
      · exact old
  · rw [if_neg present, List.mem_append, List.mem_singleton, or_comm]

theorem mem_of_mem_putAll {kept pairs : List (α × β)} {p : α × β}
    (h : p ∈ putAll kept pairs) : p ∈ kept ∨ p ∈ pairs := by
  induction pairs generalizing kept with
  | nil => exact Or.inl h
  | cons q rest ih =>
      rcases ih h with placed | later
      · rcases mem_of_mem_put placed with rfl | old
        · exact Or.inr List.mem_cons_self
        · exact Or.inl old
      · exact Or.inr (List.mem_cons_of_mem _ later)

theorem mem_keys_putAll {kept pairs : List (α × β)} {key : α} :
    key ∈ (putAll kept pairs).map (·.1) ↔ key ∈ kept.map (·.1) ∨ key ∈ pairs.map (·.1) := by
  induction pairs generalizing kept with
  | nil => simp [putAll]
  | cons q rest ih =>
      have placed : key ∈ (put q.1 q.2 kept).map (·.1) ↔ key = q.1 ∨ key ∈ kept.map (·.1) :=
        mem_keys_put
      calc
        key ∈ (putAll kept (q :: rest)).map (·.1) ↔
            key ∈ (put q.1 q.2 kept).map (·.1) ∨ key ∈ rest.map (·.1) := ih
        _ ↔ key ∈ kept.map (·.1) ∨ key ∈ (q :: rest).map (·.1) := by
          rw [placed, List.map_cons, List.mem_cons, or_assoc, or_left_comm]

theorem nodup_keys_putAll {kept pairs : List (α × β)} (h : (kept.map (·.1)).Nodup) :
    ((putAll kept pairs).map (·.1)).Nodup := by
  induction pairs generalizing kept with
  | nil => exact h
  | cons q rest ih => exact ih (nodup_keys_put h)

/-- A keyed list holds only pairs that were given. -/
theorem mem_of_mem_ofList {pairs : List (α × β)} {p : α × β} (h : p ∈ ofList pairs) :
    p ∈ pairs :=
  (mem_of_mem_putAll h).resolve_left List.not_mem_nil

/-- A keyed list has the keys that were given. -/
theorem mem_keys_ofList {pairs : List (α × β)} {key : α} :
    key ∈ (ofList pairs).map (·.1) ↔ key ∈ pairs.map (·.1) := by
  rw [ofList, mem_keys_putAll]
  simp

/-- A keyed list has every key once. -/
theorem nodup_keys_ofList (pairs : List (α × β)) : ((ofList pairs).map (·.1)).Nodup :=
  nodup_keys_putAll List.nodup_nil

/-- Changing the values changes neither keys nor places. -/
theorem map_put (f : β → γ) (key : α) (value : β) (kept : List (α × β)) :
    (put key value kept).map (fun p => (p.1, f p.2)) =
      put key (f value) (kept.map fun p => (p.1, f p.2)) := by
  induction kept with
  | nil => rfl
  | cons q rest ih =>
      obtain ⟨k, v⟩ := q
      rw [put, List.map_cons, put]
      split
      · rfl
      · rw [List.map_cons, ih]

theorem map_putAll (f : β → γ) (kept pairs : List (α × β)) :
    (putAll kept pairs).map (fun p => (p.1, f p.2)) =
      putAll (kept.map fun p => (p.1, f p.2)) (pairs.map fun p => (p.1, f p.2)) := by
  induction pairs generalizing kept with
  | nil => rfl
  | cons q rest ih =>
      have step := ih (put q.1 q.2 kept)
      rw [map_put] at step
      exact step

theorem map_ofList (f : β → γ) (pairs : List (α × β)) :
    (ofList pairs).map (fun p => (p.1, f p.2)) = ofList (pairs.map fun p => (p.1, f p.2)) :=
  map_putAll f [] pairs

theorem get?_map (f : α × β → γ) (key : α) (kept : List (α × β)) :
    get? key (kept.map fun p => (p.1, f p)) = (get? key kept).map fun v => f (key, v) := by
  induction kept with
  | nil => rfl
  | cons q rest ih =>
      obtain ⟨k, v⟩ := q
      rw [List.map_cons, get?, get?]
      split
      next same =>
        subst same
        rfl
      · exact ih

theorem get?_putAll (key : α) (kept pairs : List (α × β)) :
    get? key (putAll kept pairs) =
      (((pairs.filter fun p => p.1 = key).getLast?).map (·.2)).or (get? key kept) := by
  induction pairs generalizing kept with
  | nil => rfl
  | cons q rest ih =>
      have step : putAll kept (q :: rest) = putAll (put q.1 q.2 kept) rest := rfl
      rw [step, ih, get?_put]
      by_cases same : q.1 = key
      · rw [List.filter_cons_of_pos (by simpa using same), if_pos same.symm, List.getLast?_cons]
        cases (rest.filter fun p => p.1 = key).getLast? <;> rfl
      · have other : key ≠ q.1 := fun equal => same equal.symm
        rw [List.filter_cons_of_neg (by simpa using same), if_neg other]

/-- Under a key stands the value of the last pair that was given with it. -/
theorem get?_ofList (key : α) (pairs : List (α × β)) :
    get? key (ofList pairs) = ((pairs.filter fun p => p.1 = key).getLast?).map (·.2) := by
  rw [ofList, get?_putAll, get?, Option.or_none]

theorem eraseDups_append_singleton (as : List α) (a : α) :
    (as ++ [a]).eraseDups = if a ∈ as then as.eraseDups else as.eraseDups ++ [a] := by
  rw [List.eraseDups_append]
  by_cases present : a ∈ as <;> simp [List.removeAll, List.eraseDups_cons, present]

/-- The keys of a keyed list are those given, each where it first came. -/
theorem keys_ofList (pairs : List (α × β)) :
    (ofList pairs).map (·.1) = (pairs.map (·.1)).eraseDups := by
  induction pairs using List.reverseRecOn with
  | nil => rfl
  | append_singleton pairs p ih =>
      have step : ofList (pairs ++ [p]) = put p.1 p.2 (ofList pairs) := List.foldl_append
      rw [step, keys_put, List.map_append, List.map_singleton, eraseDups_append_singleton]
      simp only [ih, List.mem_eraseDups]

/-- A keyed list is known by its keys and by what stands under each. -/
theorem eq_filterMap_get? {kept : List (α × β)} (nodup : (kept.map (·.1)).Nodup) :
    kept = (kept.map (·.1)).filterMap fun key => (get? key kept).map fun value => (key, value) := by
  induction kept with
  | nil => rfl
  | cons p rest ih =>
      obtain ⟨k, v⟩ := p
      obtain ⟨absent, nodup⟩ := List.nodup_cons.mp nodup
      have first : get? k ((k, v) :: rest) = some v := by rw [get?, if_pos rfl]
      have later : ∀ key ∈ rest.map (·.1), get? key ((k, v) :: rest) = get? key rest := by
        intro key mem
        have other : k ≠ key := fun same => absent (same ▸ mem)
        rw [get?, if_neg other]
      rw [List.map_cons, List.filterMap_cons, first, Option.map_some,
        List.filterMap_congr fun key mem => by rw [later key mem], ← ih nodup]

/-- What is put takes the place of what had its key. -/
theorem mem_put_iff {key : α} {value : β} {kept : List (α × β)} (nodup : (kept.map (·.1)).Nodup)
    (k : α) (v : β) :
    (k, v) ∈ put key value kept ↔ k = key ∧ v = value ∨ k ≠ key ∧ (k, v) ∈ kept := by
  induction kept with
  | nil => simp [put]
  | cons q rest ih =>
      obtain ⟨k', v'⟩ := q
      rw [List.map_cons, List.nodup_cons] at nodup
      rw [put]
      split
      next same =>
        subst same
        have absent : k = k' → (k, v) ∉ rest := by
          rintro rfl mem
          exact nodup.1 (List.mem_map.mpr ⟨(k, v), mem, rfl⟩)
        simp only [List.mem_cons, Prod.mk.injEq]
        constructor
        · rintro (here | later)
          · exact .inl here
          · exact .inr ⟨fun same => absent same later, .inr later⟩
        · rintro (here | ⟨other, here | later⟩)
          · exact .inl here
          · exact absurd here.1 other
          · exact .inr later
      next different =>
        rw [List.mem_cons, ih nodup.2, List.mem_cons, Prod.mk.injEq]
        constructor
        · rintro (⟨rfl, rfl⟩ | here | ⟨other, later⟩)
          · exact .inr ⟨different, .inl ⟨rfl, rfl⟩⟩
          · exact .inl here
          · exact .inr ⟨other, .inr later⟩
        · rintro (here | ⟨other, here | later⟩)
          · exact .inr (.inl here)
          · exact .inl here
          · exact .inr (.inr ⟨other, later⟩)

theorem exists_split_cons {as : List γ} (a : γ) (P : γ → Prop) (Q : List γ → Prop) :
    (∃ before b after, a :: as = before ++ b :: after ∧ P b ∧ Q after) ↔
      P a ∧ Q as ∨ ∃ before b after, as = before ++ b :: after ∧ P b ∧ Q after := by
  constructor
  · rintro ⟨before, b, after, split, holds, rest⟩
    cases before with
    | nil =>
        obtain ⟨rfl, rfl⟩ := List.cons.inj split
        exact .inl ⟨holds, rest⟩
    | cons c before =>
        obtain ⟨rfl, rfl⟩ := List.cons.inj split
        exact .inr ⟨before, b, after, rfl, holds, rest⟩
  · rintro (⟨holds, rest⟩ | ⟨before, b, after, rfl, holds, rest⟩)
    · exact ⟨[], a, as, rfl, holds, rest⟩
    · exact ⟨a :: before, b, after, rfl, holds, rest⟩

/-- Of the pairs that are put the last with its key is kept, and what had its key is not. -/
theorem mem_putAll_filterMap_iff (f : γ → Option (α × β)) (as : List γ) {kept : List (α × β)}
    (nodup : (kept.map (·.1)).Nodup) (k : α) (v : β) :
    (k, v) ∈ putAll kept (as.filterMap f) ↔
      (∃ before a after, as = before ++ a :: after ∧ f a = some (k, v) ∧
        ∀ b ∈ after, ∀ p ∈ f b, p.1 ≠ k) ∨
      (∀ b ∈ as, ∀ p ∈ f b, p.1 ≠ k) ∧ (k, v) ∈ kept := by
  induction as generalizing kept with
  | nil => simp [putAll]
  | cons a as ih =>
      rw [exists_split_cons a (fun b => f b = some (k, v))
        (fun after => ∀ b ∈ after, ∀ p ∈ f b, p.1 ≠ k), List.forall_mem_cons]
      cases found : f a with
      | none =>
          rw [List.filterMap_cons_none found, ih nodup]
          simp
      | some p =>
          obtain ⟨k', v'⟩ := p
          have step : putAll kept ((k', v') :: as.filterMap f) =
              putAll (put k' v' kept) (as.filterMap f) := rfl
          rw [List.filterMap_cons_some found, step, ih (nodup_keys_put nodup),
            mem_put_iff nodup]
          simp only [Option.mem_def, Option.some.injEq, forall_eq', Prod.mk.injEq]
          grind

/-- Of the pairs that a list gives, the last with its key is kept. -/
theorem mem_ofList_filterMap_iff (f : γ → Option (α × β)) (as : List γ) (k : α) (v : β) :
    (k, v) ∈ ofList (as.filterMap f) ↔ ∃ before a after, as = before ++ a :: after ∧
      f a = some (k, v) ∧ ∀ b ∈ after, ∀ p ∈ f b, p.1 ≠ k := by
  have nodup : (([] : List (α × β)).map (·.1)).Nodup := List.nodup_nil
  rw [ofList, mem_putAll_filterMap_iff f as nodup]
  simp

end RenderTrace.Keyed
