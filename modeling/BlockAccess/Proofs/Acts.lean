import Mathlib.Data.List.Basic

/-!
# Calls one after another

A client makes calls on something, on a reader for instance, and each call ends in some way and
leaves the thing and its surroundings in some state for the next one.  `acts` is the record of a
run: every call with how it ended and with the state on either side of it.
-/

namespace BlockAccess

/-- A call of a run: how it ended, and the state on either side of it. -/
structure Act (Call Result State : Type) where
  call : Call
  before : State
  result : Result
  after : State

section

variable {Call Result State : Type} (perform : Call → State → Result × State)

/-- A call as part of a run. -/
def act (c : Call) (s : State) : Act Call Result State where
  call := c
  before := s
  result := (perform c s).1
  after := (perform c s).2

/-- The calls of a run, the first one first. -/
def acts : List Call → State → List (Act Call Result State)
  | [], _ => []
  | c :: cs, s => act perform c s :: acts cs (act perform c s).after

/-- The state at the end of a run. -/
def endOf : List Call → State → State
  | [], s => s
  | c :: cs, s => endOf cs (act perform c s).after

variable {perform} {cs : List Call} {s : State}

theorem acts_cons (c : Call) : acts perform (c :: cs) s =
    act perform c s :: acts perform cs (act perform c s).after := rfl

theorem acts_append (cs₁ cs₂ : List Call) : acts perform (cs₁ ++ cs₂) s =
    acts perform cs₁ s ++ acts perform cs₂ (endOf perform cs₁ s) := by
  induction cs₁ generalizing s with
  | nil => rfl
  | cons c cs₁ ih => rw [List.cons_append, acts_cons, acts_cons, ih, List.cons_append]; rfl

theorem endOf_append (cs₁ cs₂ : List Call) :
    endOf perform (cs₁ ++ cs₂) s = endOf perform cs₂ (endOf perform cs₁ s) := by
  induction cs₁ generalizing s with
  | nil => rfl
  | cons c cs₁ ih => exact ih

/-- The calls of a run are the ones that were made. -/
theorem map_call_acts (perform : Call → State → Result × State) (cs : List Call) (s : State) :
    (acts perform cs s).map Act.call = cs := by
  induction cs generalizing s with
  | nil => rfl
  | cons c cs ih =>
    rw [acts_cons, List.map_cons, ih]
    rfl

/-- What comes before a call of a run, the call, and what follows it. -/
theorem acts_eq_append {t₁ t₂ : List (Act Call Result State)} {a : Act Call Result State}
    (h : acts perform cs s = t₁ ++ a :: t₂) : ∃ cs₁ cs₂, cs = cs₁ ++ a.call :: cs₂ ∧
      acts perform cs₁ s = t₁ ∧ act perform a.call (endOf perform cs₁ s) = a ∧
      acts perform cs₂ a.after = t₂ := by
  induction t₁ generalizing cs s with
  | nil =>
    cases cs with
    | nil => simp [acts] at h
    | cons c cs =>
      obtain ⟨rfl, rfl⟩ := List.cons.inj h
      exact ⟨[], cs, rfl, rfl, rfl, rfl⟩
  | cons b t₁ ih =>
    cases cs with
    | nil => simp [acts] at h
    | cons c cs =>
      obtain ⟨rfl, htail⟩ := List.cons.inj h
      obtain ⟨cs₁, cs₂, rfl, rfl, ha, ht⟩ := ih htail
      exact ⟨c :: cs₁, cs₂, rfl, rfl, ha, ht⟩

/-- What follows for a call from what all calls of some kind keep holds for every call of a run of
such calls, and what they keep holds at its end. -/
theorem acts_keep {I : State → Prop} {P : Act Call Result State → Prop} {Q : Call → Prop}
    (hstep : ∀ c s, Q c → I s → P (act perform c s) ∧ I (act perform c s).after)
    (hcs : ∀ c ∈ cs, Q c) (hs : I s) : (∀ a ∈ acts perform cs s, P a) ∧ I (endOf perform cs s) := by
  induction cs generalizing s with
  | nil => exact ⟨fun a ha => absurd ha List.not_mem_nil, hs⟩
  | cons c cs ih =>
    rw [List.forall_mem_cons] at hcs
    obtain ⟨hact, hafter⟩ := hstep c s hcs.1 hs
    obtain ⟨hacts, hend⟩ := ih hcs.2 hafter
    rw [acts_cons, List.forall_mem_cons]
    exact ⟨⟨hact, hacts⟩, hend⟩

/-- What follows for a call from what all calls keep holds for every call of a run. -/
theorem forall_mem_acts {I : State → Prop} {P : Act Call Result State → Prop}
    (hstep : ∀ c s, I s → P (act perform c s) ∧ I (act perform c s).after) (hs : I s) :
    ∀ a ∈ acts perform cs s, P a :=
  (acts_keep (Q := fun _ => True) (fun c s _ => hstep c s) (fun _ _ => trivial) hs).1

end

end BlockAccess
