/-!
# Keyed lists

A list of pairs in which every key stands once, in the order the keys first came.
Putting a key that is there replaces its value and leaves its place.
-/

namespace RenderTrace.Keyed

variable {α β : Type} [DecidableEq α]

/-- Puts a value under a key. -/
def put (key : α) (value : β) : List (α × β) → List (α × β)
  | [] => [(key, value)]
  | (k, v) :: rest => if k = key then (k, value) :: rest else (k, v) :: put key value rest

/-- The value under a key. -/
def get? (key : α) : List (α × β) → Option β
  | [] => none
  | (k, v) :: rest => if k = key then some v else get? key rest

/-- Puts pairs one after another. -/
def putAll (kept : List (α × β)) (pairs : List (α × β)) : List (α × β) :=
  pairs.foldl (fun kept p => put p.1 p.2 kept) kept

/-- The keyed list of pairs; of pairs with one key the first gives the place and the last the
value. -/
def ofList (pairs : List (α × β)) : List (α × β) :=
  putAll [] pairs

theorem keys_put (key : α) (value : β) (kept : List (α × β)) :
    (put key value kept).map (·.1) =
      if key ∈ kept.map (·.1) then kept.map (·.1) else kept.map (·.1) ++ [key] := by
  induction kept with
  | nil => simp [put]
  | cons p rest ih =>
    obtain ⟨k, v⟩ := p
    by_cases h : k = key
    · simp [put, h]
    · have : key ≠ k := fun e => h e.symm
      simp only [put, if_neg h, List.map_cons, ih, List.mem_cons, this, false_or]
      split <;> simp

theorem get?_put (key other : α) (value : β) (kept : List (α × β)) :
    get? other (put key value kept) = if other = key then some value else get? other kept := by
  induction kept with
  | nil =>
    by_cases h : key = other
    · simp [put, get?, h]
    · have : other ≠ key := fun e => h e.symm
      simp [put, get?, h, this]
  | cons p rest ih =>
    obtain ⟨k, v⟩ := p
    by_cases h : k = key
    · subst h
      by_cases ho : k = other
      · simp [put, get?, ho]
      · have : other ≠ k := fun e => ho e.symm
        simp [put, get?, ho, this]
    · by_cases ho : k = other
      · subst ho
        simp [put, get?, h]
      · simp [put, get?, h, ho, ih]

theorem nodup_keys_put {key : α} {value : β} {kept : List (α × β)}
    (h : (kept.map (·.1)).Nodup) : ((put key value kept).map (·.1)).Nodup := by
  rw [keys_put]
  split
  · exact h
  next absent =>
    rw [List.nodup_append]
    refine ⟨h, by simp, ?_⟩
    intro a ha b hb
    simp only [List.mem_singleton] at hb
    subst hb
    exact fun e => absent (e ▸ ha)

end RenderTrace.Keyed
