import BlockAccess.Proofs.Acts
import BlockAccess.Trace

/-!
# Listening in to a channel

A client that has one channel is listened in to by the events of that channel (`Channel.tapped`).
An event is a request that goes out, or it is waited for a response, or the channel is closed.
`Observed.Saw` says which events lie between two states, and `Act.events` which belong to a call of
a run.

A channel under no observation `Delivers` some responses if they are received one after the other.
That is what is under way on it, and there is never more of it than the channel says.
-/

namespace BlockAccess

open Wire (Request Response Status)

/-! ## What is seen on a channel -/

namespace Event

/-- The request that went out. -/
def request? : Event → Option Request
  | sent _ r => some r
  | _ => none

/-- Whether a response was waited for. -/
def listens : Event → Bool
  | received .. | receiveFailed _ => true
  | _ => false

/-- Whether a response came that ends a range: the end mark, or one that reports a failure. -/
def ends : Event → Bool
  | received _ status data => !(status = Status.ok && data.isSome)
  | _ => false

/-- Whether the channel was closed. -/
def hangsUp : Event → Bool
  | channelClosed _ => true
  | _ => false

/-- A response came. -/
def heard (n : Nat) (r : Response) : Event := received n r.status (r.data.map List.length)

@[simp] theorem ends_heard (n : Nat) (r : Response) : (heard n r).ends = !r.isPacket := by
  simp [heard, ends, Response.isPacket]

theorem request?_of_listens {e : Event} (h : e.listens = true) : e.request? = none := by
  cases e <;> first | rfl | simp [listens] at h

theorem hangsUp_of_listens {e : Event} (h : e.listens = true) : e.hangsUp = false := by
  cases e <;> first | rfl | simp [listens] at h

/-- Who listens sends nothing. -/
theorem filterMap_of_listens {es : List Event} (h : ∀ e ∈ es, e.listens = true) :
    es.filterMap request? = [] := by
  rw [List.filterMap_eq_nil_iff]
  intro e he
  exact request?_of_listens (h e he)

theorem countP_of_listens {es : List Event} (h : ∀ e ∈ es, e.listens = true) :
    es.countP hangsUp = 0 := by
  rw [List.countP_eq_zero]
  intro e he
  rw [hangsUp_of_listens (h e he)]
  exact Bool.false_ne_true

/-- If what ends a range comes last, nothing is waited for after it. -/
theorem silent_of_pairwise {es : List Event} (h : es.Pairwise fun e _ => e.ends = false) :
    es.Pairwise fun e e' => e.ends = true → e'.listens = false := by
  refine h.imp fun hends he => ?_
  rw [hends] at he
  exact absurd he Bool.false_ne_true

end Event

namespace Observed

variable {W : Type} {o o₁ o₂ : Observed W} {es es' : List Event}

/-- Between two states these events were seen. -/
def Saw (o : Observed W) (es : List Event) (o' : Observed W) : Prop :=
  o'.events.toList = o.events.toList ++ es

theorem Saw.nothing (o : Observed W) : o.Saw [] o := (List.append_nil _).symm

theorem Saw.append (h : o.Saw es o₁) (h' : o₁.Saw es' o₂) : o.Saw (es ++ es') o₂ := by
  rw [Saw, h', h, List.append_assoc]

theorem saw_see (o : Observed W) (w : W) (e : Event) : o.Saw [e] ((o.withInner w).see e) := by
  rw [Saw, see, Array.toList_push]
  rfl

theorem saw_note [Journaled W] (o : Observed W) (x : Notice) : o.Saw [] (note x o) :=
  Saw.nothing o

theorem Saw.drop_eq (h : o.Saw es o₁) : o₁.events.toList.drop o.events.size = es := by
  rw [h, ← Array.length_toList, List.drop_left]

end Observed

section

variable {Call Result X W : Type}

/-- What was seen during a call. -/
def Act.events (a : Act Call Result (X × Observed W)) : List Event :=
  a.after.2.events.toList.drop a.before.2.events.size

/-- What was seen during a run. -/
def eventsOf (t : List (Act Call Result (X × Observed W))) : List Event := t.flatMap Act.events

theorem eventsOf_append (t t' : List (Act Call Result (X × Observed W))) :
    eventsOf (t ++ t') = eventsOf t ++ eventsOf t' :=
  List.flatMap_append

theorem eventsOf_cons (a : Act Call Result (X × Observed W))
    (t : List (Act Call Result (X × Observed W))) : eventsOf (a :: t) = a.events ++ eventsOf t :=
  List.flatMap_cons

variable {perform : Call → X × Observed W → Result × X × Observed W} {s : X × Observed W}
  {es : List Event}

theorem events_act {c : Call} (h : s.2.Saw es (act perform c s).after.2) :
    (act perform c s).events = es :=
  h.drop_eq

/-- What is seen from the start of a run to its end is what is seen during its calls. -/
theorem saw_run (h : ∀ c (s : X × Observed W), ∃ es, s.2.Saw es (act perform c s).after.2)
    (cs : List Call) : s.2.Saw (eventsOf (acts perform cs s)) (endOf perform cs s).2 := by
  induction cs generalizing s with
  | nil => exact .nothing s.2
  | cons c cs ih =>
    obtain ⟨es, hes⟩ := h c s
    rw [acts_cons, eventsOf_cons, events_act hes]
    exact hes.append ih

theorem eventsOf_eq_nil {t : List (Act Call Result (X × Observed W))}
    (h : ∀ a ∈ t, a.events = []) : eventsOf t = [] :=
  List.flatMap_eq_nil_iff.2 h

end

namespace Channel

variable {W C : Type}

/-- Channels under observation, all by one number.  It is for a client that has one channel. -/
def tapped (n : Nat) (channels : Channel W C) : Channel (Observed W) C :=
  channels.observed fun _ => n

variable {channels : Channel W C} {n : Nat} {c d : C} {o : Observed W} {w v : W}

theorem send_tapped {x : Except Failure Unit} {r : Request}
    (h : channels.send r c o.inner = (x, d, w)) :
    (channels.tapped n).send r c o = (x, d, (o.withInner w).see (.sent n r)) := by
  simp only [tapped, observed, h]

theorem receive_tapped {r : Response} (h : channels.receive c o.inner = (.ok r, d, w)) :
    (channels.tapped n).receive c o = (.ok r, d, (o.withInner w).see (.heard n r)) := by
  simp only [tapped, observed, h, Event.heard]

theorem receive_tapped_failed {f : Failure} (h : channels.receive c o.inner = (.error f, d, w)) :
    (channels.tapped n).receive c o = (.error f, d, (o.withInner w).see (.receiveFailed n)) := by
  simp only [tapped, observed, h]

theorem close_tapped {x : Except Failure Unit} (h : channels.close c o.inner = (x, d, w)) :
    (channels.tapped n).close c o = (x, d, (o.withInner w).see (.channelClosed n)) := by
  simp only [tapped, observed, h]

/-- From a channel and its surroundings these responses are received one after the other. -/
inductive Delivers (channels : Channel W C) : C → W → List Response → C → W → Prop
  | nil (c : C) (w : W) : Delivers channels c w [] c w
  | cons {c c' d : C} {w w' v : W} {r : Response} {rs : List Response}
    (h : channels.receive c w = (.ok r, c', w')) (ht : Delivers channels c' w' rs d v) :
    Delivers channels c w (r :: rs) d v

/-- A channel delivers no more than it has. -/
theorem Delivers.length_le {rs : List Response} (h : channels.Delivers c w rs d v) :
    channels.pending d + rs.length ≤ channels.pending c := by
  induction h with
  | nil => exact Nat.le_refl _
  | cons h _ ih =>
    have hless := channels.pending_receive h
    rw [List.length_cons]
    omega

end Channel

end BlockAccess
