import BlockAccess.Settings

/-!
# Settings with other values in place of their own

A properties file and a mount both say what some keys are to be, and leave the others alone.  What
they say is a value, or none, for each key, and `Settings.overridden` puts the values in place.

What a client does is to set one key after the other, in the order of a file or of a table.
`Settings.setAll` is that, and `setAll_of_lists` says that the order makes no difference as long as
each key is set only once.
-/

namespace BlockAccess

/-- The entries of a partial function, each one once and in any order. -/
structure Lists {α : Type} (es : List (α × Text)) (f : α → Option Text) : Prop where
  nodup : (es.map Prod.fst).Nodup
  mem_iff : ∀ a v, (a, v) ∈ es ↔ f a = some v

namespace Lists

variable {α : Type} {es : List (α × Text)} {f : α → Option Text} {a : α} {v : Text}

theorem eq_none_of_nil (h : Lists [] f) (a : α) : f a = none := by
  cases hfa : f a with
  | none => rfl
  | some v => exact absurd ((h.mem_iff a v).2 hfa) List.not_mem_nil

/-- What follows the first entry lists the rest of the function. -/
theorem tail [DecidableEq α] (h : Lists ((a, v) :: es) f) :
    Lists es fun b => if b = a then none else f b := by
  have hnodup := h.nodup
  rw [List.map_cons, List.nodup_cons] at hnodup
  refine ⟨hnodup.2, fun b u => ?_⟩
  by_cases hb : b = a
  · rw [if_pos hb]
    constructor
    · intro hmem
      have hkey : b ∈ es.map Prod.fst := List.mem_map_of_mem hmem
      exact absurd (hb ▸ hkey) hnodup.1
    · intro hnone
      simp at hnone
  · rw [if_neg hb, ← h.mem_iff, List.mem_cons, Prod.mk.injEq]
    simp only [hb, false_and, false_or]

end Lists

namespace Settings

/-- The settings with other values in place of their own, where there are any. -/
def overridden (s : Settings) (f : Key → Option Text) : Settings := ⟨fun k => (f k).or (s.value? k)⟩

/-- The settings after keys were set one after the other. -/
def setAll (s : Settings) (es : List (Key × Text)) : Settings :=
  es.foldl (fun s e => s.set e.1 e.2) s

variable {f : Key → Option Text} {es : List (Key × Text)} {k : Key} {v : Text}

@[simp] theorem value?_overridden (s : Settings) (f : Key → Option Text) (k : Key) :
    (s.overridden f).value? k = (f k).or (s.value? k) := rfl

theorem setAll_append (s : Settings) (es es' : List (Key × Text)) :
    s.setAll (es ++ es') = (s.setAll es).setAll es' := List.foldl_append

/-- One of the values may be put in place before the others. -/
theorem overridden_set (s : Settings) (h : f k = some v) :
    (s.set k v).overridden (fun l => if l = k then none else f l) = s.overridden f := by
  ext l : 1
  rw [value?_overridden, value?_overridden, value?_set]
  by_cases hl : l = k
  · rw [if_pos hl, if_pos hl, hl, h, Option.none_or, Option.some_or]
  · rw [if_neg hl, if_neg hl]

/-- **Keys may be set in any order** if each of them is set only once. -/
theorem setAll_of_lists (h : Lists es f) (s : Settings) : s.setAll es = s.overridden f := by
  induction es generalizing s f with
  | nil =>
    ext l : 1
    rw [value?_overridden, h.eq_none_of_nil, Option.none_or]
    rfl
  | cons e es ih =>
    obtain ⟨k, v⟩ := e
    have hfirst : f k = some v := (h.mem_iff k v).1 (List.mem_cons_self ..)
    calc s.setAll ((k, v) :: es) = (s.set k v).setAll es := rfl
      _ = (s.set k v).overridden fun l => if l = k then none else f l := ih h.tail _
      _ = s.overridden f := overridden_set s hfirst

end Settings

end BlockAccess
