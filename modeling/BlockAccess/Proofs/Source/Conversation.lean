import BlockAccess.Channel.Scripted
import BlockAccess.Proofs.Source.Closing

/-!
# The conversation of a remote reader

What a reader of a remote block sends on its channel and what it waits for is seen on the channel
under observation.  `Conversation` is what holds of it whatever the channel does and whatever calls
are made on the reader: the request goes out, it is taken back at most once, nothing is waited for
once the range is over, and the first close is the end of it all.

As long as the reader was not closed it is `Attending`: it has its channel, and it is done exactly
if a response came that ends the range.  That is kept from call to call (`Attending.next`) and so
along a run (`Attending.run`), up to the first close.  A reader without a channel does nothing.
-/

namespace BlockAccess

open Wire (Request Response Status)

namespace RemoteReader

variable {W C : Type} [Journaled W] {channels : Channel W C} {n : Nat} {r : Request} {c : C}

/-! ## Runs -/

/-- A call on a reader. -/
inductive Call where
  | next
  | close
  deriving DecidableEq, Repr

/-- Makes a call.  Closing gives no packet. -/
def perform (channels : Channel W C) : Call → RemoteReader C × W →
    Except Failure (Option Packet) × RemoteReader C × W
  | .next, p => next channels p.1 p.2
  | .close, p =>
    match close channels p.1 p.2 with
    | (result, q) => (result.map fun _ => none, q)

/-- The calls of a run on a reader that is listened in to. -/
abbrev Talk (W C : Type) :=
  List (Act Call (Except Failure (Option Packet)) (RemoteReader C × Observed W))

/-- How asking for a packet goes on the channel.  The range is over, or it is not and one response
is waited for. -/
inductive Listening : (ended : Bool) → Except Failure (Option Packet) → List Event → Prop
  | finished : Listening true (.ok none) []
  | waited {x : Except Failure (Option Packet)} {e : Event} (he : e.listens = true) :
    Listening false x [e]

/-- A reader for the request that was not closed, and what it has heard: nothing more came once the
range was over, and then it is done. -/
structure Attending (r : Request) (es : List Event) (x : RemoteReader C) : Prop where
  attached : ∃ c, x.channel = some c
  request_eq : x.request = r
  listens : ∀ e ∈ es, e.listens = true
  pairwise : es.Pairwise fun e _ => e.ends = false
  done_eq : x.done = es.any Event.ends

variable {s : RemoteReader C × Observed W} {es : List Event}

omit [Journaled W] in
/-- The request goes out when a reader is made. -/
theorem attach_attending {x : RemoteReader C} {o o₁ : Observed W}
    (h : attach (channels.tapped n) (some c) r o = (.ok x, o₁)) :
    Attending r [] x ∧ o.Saw [.sent n r] o₁ := by
  unfold attach at h
  rcases hs : channels.send r c o.inner with ⟨f | ⟨⟩, d, w⟩
  · simp only [Channel.send_tapped hs] at h
    simp at h
  · simp only [Channel.send_tapped hs, Prod.mk.injEq, Except.ok.injEq] at h
    obtain ⟨rfl, rfl⟩ := h
    exact ⟨⟨⟨d, rfl⟩, rfl, fun e he => absurd he List.not_mem_nil, .nil, rfl⟩, o.saw_see w _⟩

/-- A reader that has no channel does nothing. -/
theorem act_quiet (call : Call) (h : s.1.channel = none) :
    act (perform (channels.tapped n)) call s = ⟨call, s, .ok none, s⟩ := by
  cases call with
  | next => simp only [act, perform, next_quiet (.inr h)]
  | close =>
    simp only [act, perform, close_quiet h]
    rfl

theorem Attending.next (h : Attending r es s.1) (channels : Channel W C) (n : Nat) : ∃ es',
    s.2.Saw es' (act (perform (channels.tapped n)) .next s).after.2 ∧
      Attending r (es ++ es') (act (perform (channels.tapped n)) .next s).after.1 ∧
      Listening (es.any Event.ends) (act (perform (channels.tapped n)) .next s).result es' := by
  obtain ⟨c, hc⟩ := h.attached
  rw [← h.done_eq]
  by_cases hdone : s.1.done = true
  · refine ⟨[], ?_⟩
    simp only [act, perform, next_quiet (.inl hdone), hdone, List.append_nil]
    exact ⟨.nothing s.2, h, .finished⟩
  have hdone : s.1.done = false := by simpa using hdone
  obtain ⟨y, x', o', e, d, hn, hchannel, hrequest, hsaw, hlistens, hends⟩ :=
    next_listens channels n s.2 hc hdone
  refine ⟨[e], ?_⟩
  simp only [act, perform, hn, hdone]
  have hunended : ∀ e' ∈ es, e'.ends = false := by
    have hany : es.any Event.ends = false := h.done_eq.symm.trans hdone
    simpa using hany
  refine ⟨hsaw, ⟨⟨d, hchannel⟩, hrequest.trans h.request_eq, ?_, ?_, ?_⟩, .waited hlistens⟩
  · intro e' he'
    rcases List.mem_append.1 he' with he' | he'
    · exact h.listens e' he'
    · rw [List.mem_singleton.1 he']
      exact hlistens
  · rw [List.pairwise_append]
    exact ⟨h.pairwise, List.pairwise_singleton .., fun e' he' _ _ => hunended e' he'⟩
  · rw [hends, List.any_append, ← h.done_eq, hdone]
    simp

theorem Attending.close (h : Attending r es s.1) (channels : Channel W C) (n : Nat) :
    ∃ c x es', s.1.channel = some c ∧
    (act (perform (channels.tapped n)) .close s).result = x.map (fun _ => none) ∧
    s.2.Saw es' (act (perform (channels.tapped n)) .close s).after.2 ∧
    Closing channels n r c s.2.inner (es.any Event.ends) x es' ∧
    (act (perform (channels.tapped n)) .close s).after.1.channel = none := by
  obtain ⟨c, hc⟩ := h.attached
  obtain ⟨y, x', o', es', hclose, hchannel, hsaw, hclosing⟩ :=
    close_closing channels n s.2 hc
  rw [h.request_eq, h.done_eq] at hclosing
  refine ⟨c, y, es', hc, ?_⟩
  simp only [act, perform, hclose]
  exact ⟨trivial, hsaw, hclosing, hchannel⟩

/-- Whatever is called on whatever reader, the events only grow. -/
theorem saw_act (channels : Channel W C) (n : Nat) (call : Call)
    (s : RemoteReader C × Observed W) :
    ∃ es, s.2.Saw es (act (perform (channels.tapped n)) call s).after.2 := by
  cases hc : s.1.channel with
  | none =>
    rw [act_quiet call hc]
    exact ⟨[], .nothing s.2⟩
  | some c =>
    cases call with
    | close =>
      obtain ⟨y, x', o', es, hclose, -, hsaw, -⟩ :=
        close_closing channels n s.2 hc
      refine ⟨es, ?_⟩
      simp only [act, perform, hclose]
      exact hsaw
    | next =>
      by_cases hdone : s.1.done = true
      · refine ⟨[], ?_⟩
        simp only [act, perform, next_quiet (.inl hdone)]
        exact .nothing s.2
      · obtain ⟨y, x', o', e, d, hn, -, -, hsaw, -⟩ :=
          next_listens channels n s.2 hc (by simpa using hdone)
        refine ⟨[e], ?_⟩
        simp only [act, perform, hn]
        exact hsaw

/-- A reader that is asked for packets only has heard what was seen. -/
theorem Attending.run (channels : Channel W C) (n : Nat) {cs : List Call} (hcs : Call.close ∉ cs)
    (h : Attending r es s.1) :
    Attending r (es ++ eventsOf (acts (perform (channels.tapped n)) cs s))
      (endOf (perform (channels.tapped n)) cs s).1 := by
  induction cs generalizing s es with
  | nil =>
    rw [acts, eventsOf, List.flatMap_nil, List.append_nil]
    exact h
  | cons call cs ih =>
    rw [List.mem_cons, not_or] at hcs
    cases call with
    | close => exact absurd rfl hcs.1
    | next =>
      obtain ⟨es', hsaw, hnext, -⟩ := h.next channels n
      rw [acts_cons, eventsOf_cons, events_act hsaw, ← List.append_assoc]
      exact ih hcs.2 hnext

/-- The first close of a run. -/
structure FirstClose (t₁ : Talk W C) (a : Act Call (Except Failure (Option Packet))
    (RemoteReader C × Observed W)) : Prop where
  before : ∀ b ∈ t₁, b.call = .next
  close : a.call = .close

section

variable {calls : List Call} {t₁ t₂ : Talk W C}
  {a : Act Call (Except Failure (Option Packet)) (RemoteReader C × Observed W)}

/-- A call of a run, after calls none of which is a close. -/
theorem acts_before (ht : acts (perform (channels.tapped n)) calls s = t₁ ++ a :: t₂)
    (hbefore : ∀ b ∈ t₁, b.call = .next) : ∃ cs, Call.close ∉ cs ∧
      acts (perform (channels.tapped n)) cs s = t₁ ∧
      endOf (perform (channels.tapped n)) cs s = a.before ∧
      act (perform (channels.tapped n)) a.call a.before = a ∧
      ∃ cs', t₂ = acts (perform (channels.tapped n)) cs' a.after := by
  obtain ⟨cs₁, cs₂, -, ht₁, ha, ht₂⟩ := acts_eq_append ht
  have hcs : Call.close ∉ cs₁ := by
    intro hmem
    rw [← map_call_acts (perform (channels.tapped n)) cs₁ s, ht₁] at hmem
    obtain ⟨b, hb, hclose⟩ := List.mem_map.1 hmem
    rw [hbefore b hb] at hclose
    exact absurd hclose (by decide)
  have hstart : endOf (perform (channels.tapped n)) cs₁ s = a.before := congrArg Act.before ha
  rw [hstart] at ha
  exact ⟨cs₁, hcs, ht₁, hstart, ha, cs₂, ht₂.symm⟩

/-- Until it is closed for the first time, a reader has heard what was seen. -/
theorem Attending.split (h : Attending r [] s.1)
    (ht : acts (perform (channels.tapped n)) calls s = t₁ ++ a :: t₂)
    (hbefore : ∀ b ∈ t₁, b.call = .next) : Attending r (eventsOf t₁) a.before.1 ∧
      act (perform (channels.tapped n)) a.call a.before = a ∧
      ∃ cs, t₂ = acts (perform (channels.tapped n)) cs a.after := by
  obtain ⟨cs, hcs, ht₁, hstart, ha, ht₂⟩ := acts_before ht hbefore
  have hrun := h.run channels n hcs
  rw [ht₁, hstart, List.nil_append] at hrun
  exact ⟨hrun, ha, ht₂⟩

/-- The first close of a run goes in one of the ways listed, and then nothing more happens. -/
theorem Attending.firstClose (h : Attending r [] s.1)
    (ht : acts (perform (channels.tapped n)) calls s = t₁ ++ a :: t₂) (hfirst : FirstClose t₁ a) :
    (∃ c x, a.before.1.channel = some c ∧ a.result = x.map (fun _ => none) ∧
      Closing channels n r c a.before.2.inner ((eventsOf t₁).any Event.ends) x a.events) ∧
    ∀ b ∈ t₂, b.events = [] ∧ b.after = b.before ∧ b.result = .ok none := by
  obtain ⟨hattending, ha, cs, ht₂⟩ := h.split ht hfirst.before
  rw [hfirst.close] at ha
  obtain ⟨c, x, es, hc, hresult, hsaw, hclosing, hchannel⟩ :=
    hattending.close channels n
  have hevents := events_act hsaw
  rw [ha] at hresult hevents hchannel
  refine ⟨⟨c, x, hc, hresult, hevents.symm ▸ hclosing⟩, ?_⟩
  rw [ht₂]
  refine forall_mem_acts (I := fun s => s.1.channel = none) (fun call s hs => ?_) hchannel
  rw [act_quiet call hs]
  exact ⟨⟨(Observed.Saw.nothing s.2).drop_eq, rfl, rfl⟩, hs⟩

/-- What is seen of a run up to its first close, and what is seen of that. -/
theorem Attending.eventsOf_eq (h : Attending r [] s.1)
    (ht : acts (perform (channels.tapped n)) calls s = t₁ ++ a :: t₂) (hfirst : FirstClose t₁ a) :
    eventsOf (acts (perform (channels.tapped n)) calls s) = eventsOf t₁ ++ a.events := by
  obtain ⟨-, hafter⟩ := h.firstClose ht hfirst
  rw [ht, eventsOf_append, eventsOf_cons, eventsOf_eq_nil fun b hb => (hafter b hb).1,
    List.append_nil]

/-- A run has a first close, or no close at all. -/
theorem firstClose_or (channels : Channel W C) (n : Nat) (calls : List Call)
    (s : RemoteReader C × Observed W) : Call.close ∉ calls ∨
      ∃ t₁ a t₂, acts (perform (channels.tapped n)) calls s = t₁ ++ a :: t₂ ∧ FirstClose t₁ a := by
  by_cases hclose : Call.close ∈ calls
  · obtain ⟨cs₁, cs₂, rfl, hcs₁⟩ := List.eq_append_cons_of_mem hclose
    refine .inr ⟨_, _, _, acts_append cs₁ (.close :: cs₂), ?_, rfl⟩
    intro b hb
    have hcall : b.call ∈ cs₁ := by
      rw [← map_call_acts (perform (channels.tapped n)) cs₁ s]
      exact List.mem_map_of_mem hb
    cases hb' : b.call with
    | next => rfl
    | close => exact absurd (hb' ▸ hcall) hcs₁
  · exact .inl hclose

/-- Without a close the request is not taken back. -/
theorem Attending.filterMap_of_notMem (h : Attending r [] s.1) (hcalls : Call.close ∉ calls) :
    (eventsOf (acts (perform (channels.tapped n)) calls s)).filterMap Event.request? = [] :=
  Event.filterMap_of_listens (h.run channels n hcalls).listens

/-- The request is taken back by the first close, unless the range is over by then. -/
theorem Attending.requests_eq (h : Attending r [] s.1)
    (ht : acts (perform (channels.tapped n)) calls s = t₁ ++ a :: t₂) (hfirst : FirstClose t₁ a) :
    (eventsOf (acts (perform (channels.tapped n)) calls s)).filterMap Event.request? =
      if (eventsOf t₁).any Event.ends then [] else [{ r with cancel := true }] := by
  obtain ⟨⟨c, x, -, -, hclosing⟩, -⟩ := h.firstClose ht hfirst
  rw [h.eventsOf_eq ht hfirst, List.filterMap_append,
    Event.filterMap_of_listens (h.split ht hfirst.before).1.listens, List.nil_append]
  exact hclosing.filterMap_eq

/-- The request is taken back by the first close if that comes before the range is over, and by
nothing else. -/
theorem Attending.cancels_iff (h : Attending r [] s.1) (calls : List Call) :
    (eventsOf (acts (perform (channels.tapped n)) calls s)).filterMap Event.request? =
        [{ r with cancel := true }] ↔
      ∃ t₁ a t₂, acts (perform (channels.tapped n)) calls s = t₁ ++ a :: t₂ ∧ FirstClose t₁ a ∧
        ∀ e ∈ eventsOf t₁, e.ends = false := by
  constructor
  · intro hrequests
    rcases firstClose_or channels n calls s with hnone | ⟨t₁, a, t₂, ht, hfirst⟩
    · rw [h.filterMap_of_notMem hnone] at hrequests
      exact absurd hrequests (List.cons_ne_nil _ _).symm
    · refine ⟨t₁, a, t₂, ht, hfirst, ?_⟩
      rw [h.requests_eq ht hfirst] at hrequests
      cases hends : (eventsOf t₁).any Event.ends with
      | true =>
        rw [hends] at hrequests
        exact absurd hrequests (List.cons_ne_nil _ _).symm
      | false => simpa using hends
  · rintro ⟨t₁, a, t₂, ht, hfirst, hends⟩
    have hany : (eventsOf t₁).any Event.ends = false := by simpa using hends
    rw [h.requests_eq ht hfirst, hany]
    rfl

/-- The request is taken back once at most. -/
theorem Attending.requests_or (h : Attending r [] s.1) (calls : List Call) :
    (eventsOf (acts (perform (channels.tapped n)) calls s)).filterMap Event.request? = [] ∨
      (eventsOf (acts (perform (channels.tapped n)) calls s)).filterMap Event.request? =
        [{ r with cancel := true }] := by
  rcases firstClose_or channels n calls s with hnone | ⟨t₁, a, t₂, ht, hfirst⟩
  · exact .inl (h.filterMap_of_notMem hnone)
  · rw [h.requests_eq ht hfirst]
    cases (eventsOf t₁).any Event.ends
    · exact .inr rfl
    · exact .inl rfl

/-- Nothing is waited for once the range is over. -/
theorem Attending.silent (h : Attending r [] s.1) (calls : List Call) :
    (eventsOf (acts (perform (channels.tapped n)) calls s)).Pairwise
      fun e e' => e.ends = true → e'.listens = false := by
  rcases firstClose_or channels n calls s with hnone | ⟨t₁, a, t₂, ht, hfirst⟩
  · exact Event.silent_of_pairwise (h.run channels n hnone).pairwise
  · have hheard := (h.split ht hfirst.before).1
    obtain ⟨⟨c, x, -, -, hclosing⟩, -⟩ := h.firstClose ht hfirst
    rw [h.eventsOf_eq ht hfirst, List.pairwise_append]
    refine ⟨Event.silent_of_pairwise hheard.pairwise, hclosing.pairwise,
      fun e he e' he' hends => ?_⟩
    -- what was heard before ends the range, so the channel is just closed
    have hover : (eventsOf t₁).any Event.ends = true := List.any_eq_true.2 ⟨e, he, hends⟩
    rw [hover] at hclosing
    exact hclosing.listens_eq e' he'

/-- Asking for a packet before the first close listens. -/
theorem Attending.listening (h : Attending r [] s.1)
    (ht : acts (perform (channels.tapped n)) calls s = t₁ ++ a :: t₂)
    (hbefore : ∀ b ∈ t₁, b.call = .next) (hnext : a.call = .next) :
    Listening ((eventsOf t₁).any Event.ends) a.result a.events := by
  obtain ⟨hheard, ha, -⟩ := h.split ht hbefore
  rw [hnext] at ha
  obtain ⟨es, hsaw, -, hlistening⟩ := hheard.next channels n
  have hevents := events_act hsaw
  rw [ha] at hevents hlistening
  rw [hevents]
  exact hlistening

/-- A first close that ends well closes the channel, and nothing else does. -/
theorem Attending.closed (h : Attending r [] s.1)
    (ht : acts (perform (channels.tapped n)) calls s = t₁ ++ a :: t₂) (hfirst : FirstClose t₁ a)
    (hok : a.result = .ok none) :
    (eventsOf (acts (perform (channels.tapped n)) calls s)).countP Event.hangsUp = 1 := by
  obtain ⟨⟨c, y, -, hresult, hclosing⟩, -⟩ := h.firstClose ht hfirst
  have hy : y = .ok () := by
    rw [hok] at hresult
    cases y with
    | error f => simp [Except.map] at hresult
    | ok => rfl
  rw [h.eventsOf_eq ht hfirst, List.countP_append,
    Event.countP_of_listens (h.split ht hfirst.before).1.listens, hclosing.countP_eq hy]

end

/-- **A conversation for a request**: the calls of a run on a reader, and what is seen of them.
`spoken` is everything that was seen, from the request on. -/
structure Conversation (channels : Channel W C) (n : Nat) (r : Request) (t : Talk W C)
    (spoken : List Event) : Prop where
  /-- One request goes out, and at most one that takes it back. -/
  requests : spoken.filterMap Event.request? = [r] ∨
    spoken.filterMap Event.request? = [r, { r with cancel := true }]
  /-- It is taken back exactly if the reader is closed before the range is over. -/
  cancels_iff : spoken.filterMap Event.request? = [r, { r with cancel := true }] ↔
    ∃ t₁ a t₂, t = t₁ ++ a :: t₂ ∧ FirstClose t₁ a ∧ ∀ e ∈ eventsOf t₁, e.ends = false
  /-- Nothing is waited for once the range is over. -/
  silent : spoken.Pairwise fun e e' => e.ends = true → e'.listens = false
  /-- Before the first close, asking for a packet waits for one response unless the range is
  over. -/
  listening : ∀ {t₁ a t₂}, t = t₁ ++ a :: t₂ → (∀ b ∈ t₁, b.call = .next) → a.call = .next →
    Listening ((eventsOf t₁).any Event.ends) a.result a.events
  /-- The first close takes back the request if the range is not over, passes over what is under
  way, and closes the channel. -/
  closing : ∀ {t₁ a t₂}, t = t₁ ++ a :: t₂ → FirstClose t₁ a → ∃ c x,
    a.before.1.channel = some c ∧ a.result = x.map (fun _ => none) ∧
    Closing channels n r c a.before.2.inner ((eventsOf t₁).any Event.ends) x a.events
  /-- That comes to an end: no more responses are received than the channel still has when the
  request was taken back, and the channel fails once. -/
  bounded : ∀ {t₁ a t₂}, t = t₁ ++ a :: t₂ → FirstClose t₁ a → ∀ c d v,
    a.before.1.channel = some c →
    channels.send { r with cancel := true } c a.before.2.inner = (.ok (), d, v) →
    a.events.countP Event.listens ≤ channels.pending d + 1
  /-- After the first close, whatever became of it, nothing is seen and nothing is given. -/
  quiet : ∀ {t₁ a t₂}, t = t₁ ++ a :: t₂ → FirstClose t₁ a →
    ∀ b ∈ t₂, b.events = [] ∧ b.after = b.before ∧ b.result = .ok none
  /-- If the first close ends well, the channel was closed once. -/
  closed : ∀ {t₁ a t₂}, t = t₁ ++ a :: t₂ → FirstClose t₁ a → a.result = .ok none →
    spoken.countP Event.hangsUp = 1

/-- **The conversation of a remote reader**, whatever the channel does and whatever calls are
made. -/
theorem conversation (channels : Channel W C) (n : Nat) {r : Request} {c : C} {o o₁ : Observed W}
    {x : RemoteReader C} (h : attach (channels.tapped n) (some c) r o = (.ok x, o₁))
    (calls : List Call) : ∃ spoken,
      o.Saw spoken (endOf (perform (channels.tapped n)) calls (x, o₁)).2 ∧
      Conversation channels n r (acts (perform (channels.tapped n)) calls (x, o₁)) spoken := by
  obtain ⟨hattending, hsent⟩ := attach_attending h
  have hrun := saw_run (saw_act channels n) (s := (x, o₁)) calls
  refine ⟨_, hsent.append hrun, ?_⟩
  constructor
  case requests =>
    rw [List.filterMap_append]
    rcases hattending.requests_or (s := (x, o₁)) calls with hrequests | hrequests
    · rw [hrequests]
      exact .inl rfl
    · rw [hrequests]
      exact .inr rfl
  case cancels_iff =>
    rw [List.filterMap_append, ← hattending.cancels_iff (s := (x, o₁)) calls]
    exact List.cons_inj_right r
  case silent =>
    rw [List.pairwise_append]
    refine ⟨List.pairwise_singleton .., hattending.silent calls, fun e he _ _ hends => ?_⟩
    rw [List.mem_singleton.1 he] at hends
    exact absurd hends Bool.false_ne_true
  case listening =>
    intro t₁ a t₂ ht hbefore hnext
    exact hattending.listening ht hbefore hnext
  case closing =>
    intro t₁ a t₂ ht hfirst
    exact (hattending.firstClose ht hfirst).1
  case bounded =>
    intro t₁ a t₂ ht hfirst c d v hc hs
    obtain ⟨⟨c', y, hc', -, hclosing⟩, -⟩ := hattending.firstClose ht hfirst
    obtain rfl : c = c' := Option.some.inj (hc.symm.trans hc')
    exact hclosing.countP_le hs
  case quiet =>
    intro t₁ a t₂ ht hfirst
    exact (hattending.firstClose ht hfirst).2
  case closed =>
    intro t₁ a t₂ ht hfirst hok
    rw [List.countP_append, hattending.closed ht hfirst hok]
    rfl

/-- A channel on which two packets, the end mark and another packet are under way. -/
def crowded : ScriptedChannel where
  queue := [{ data := some [1, 2] }, { data := some [3] }, Response.endMark, { data := some [4] }]

/-- A request for three bytes in packets of two. -/
def forThree : Request := { length := 3, packetSize := 2 }

/-- A reader for three bytes on the crowded channel. -/
def crowdedReader : RemoteReader ScriptedChannel where
  channel := some { crowded with sends := 1 }
  request := forThree
  position := 0

/-- Nothing was seen yet. -/
def unseen : Observed Journal := { inner := #[] }

/-- The calls go on after the first close. -/
theorem conversation_crowded :
    attach (ScriptedChannel.channel.tapped 0) (some crowded) forThree unseen =
      (.ok crowdedReader, unseen.see (.sent 0 forThree)) ∧
    ∃ spoken, unseen.Saw spoken (endOf (perform (ScriptedChannel.channel.tapped 0))
        [.next, .close, .next, .close] (crowdedReader, unseen.see (.sent 0 forThree))).2 ∧
      Conversation ScriptedChannel.channel 0 forThree
        (acts (perform (ScriptedChannel.channel.tapped 0)) [.next, .close, .next, .close]
          (crowdedReader, unseen.see (.sent 0 forThree))) spoken := by
  have hattach : attach (ScriptedChannel.channel.tapped 0) (some crowded) forThree unseen =
      (.ok crowdedReader, unseen.see (.sent 0 forThree)) := rfl
  exact ⟨hattach, conversation ScriptedChannel.channel 0 hattach [.next, .close, .next, .close]⟩

example : eventsOf (acts (perform (ScriptedChannel.channel.tapped 0)) [.next, .close, .next, .close]
    (crowdedReader, unseen.see (.sent 0 forThree))) =
    [.received 0 .ok (some 2), .sent 0 { forThree with cancel := true }, .received 0 .ok (some 1),
      .received 0 .ok none, .channelClosed 0] := by
  cbv

end RemoteReader

end BlockAccess