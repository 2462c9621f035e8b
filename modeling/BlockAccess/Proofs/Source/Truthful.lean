import BlockAccess.Offset
import BlockAccess.Proofs.Source.Conversation

/-!
# What a remote reader makes of the responses

A worker answers a request by slices of a block, one behind the other from the offset on that was
asked for.  On a channel that carries such slices (`Channel.Carries`) a reader fails on two kinds of
responses, those that report a failure and packets that are larger than was agreed upon.  Such
responses stray.

`Handed` lists how asking for a packet can end, with what was heard before.  As long as no response
strayed, a packet holds the bytes at the position of the reader, and that there are no more is only
said when the end mark came (`Truthful`).  This does not last beyond the first one that strays:

* A packet that is refused is lost.  The position stays where it was, so all packets after it hold
  bytes from further behind, by as many as were lost.
* A failure that is reported ends the range.  It is told once, and after that the reader says that
  there are no more packets, as it does after the end mark.
-/

namespace BlockAccess

open Wire (Request Response Status)

/-! ## Responses that stray -/

namespace Event

/-- Whether a response came that reports a failure, or a packet larger than was agreed upon. -/
def strays (most : Nat) : Event → Bool
  | received _ status data => status ≠ Status.ok || data.any (most < ·)
  | _ => false

/-- Whether the end mark came. -/
def marksEnd : Event → Bool
  | received _ status none => status = Status.ok
  | _ => false

/-- The bytes of a packet that is larger than was agreed upon. -/
def lost (most : Nat) : Event → Nat
  | received _ status (some size) => if status = Status.ok ∧ most < size then size else 0
  | _ => 0

/-- The bytes that were lost in the course of some events. -/
def lostIn (most : Nat) : List Event → Nat
  | [] => 0
  | e :: es => lost most e + lostIn most es

theorem lostIn_concat (most : Nat) (es : List Event) (e : Event) :
    lostIn most (es ++ [e]) = lostIn most es + lost most e := by
  induction es with
  | nil => exact (Nat.zero_add _).symm
  | cons e' es ih => rw [List.cons_append, lostIn, ih, lostIn, Nat.add_assoc]

/-- What is lost is a packet. -/
theorem lost_heard (most n : Nat) (r : Response) : (heard n r).lost most =
    if r.isPacket = true ∧ most < r.dataSize then r.dataSize else 0 := by
  cases hdata : r.data with
  | none => simp [heard, lost, Response.isPacket, hdata]
  | some b => simp [heard, lost, Response.isPacket, Response.dataSize, hdata]

theorem lost_of_strays {most : Nat} {e : Event} (h : e.strays most = false) : e.lost most = 0 := by
  unfold lost
  split
  · next status size =>
    refine if_neg fun ⟨_, hsize⟩ => ?_
    simp [strays, hsize] at h
  · rfl

theorem lostIn_eq_zero {most : Nat} {es : List Event} (h : ∀ e ∈ es, e.strays most = false) :
    lostIn most es = 0 := by
  induction es with
  | nil => rfl
  | cons e es ih =>
    have hes : lostIn most es = 0 := ih fun e' he' => h e' (List.mem_cons_of_mem _ he')
    rw [lostIn, lost_of_strays (h e (List.mem_cons_self ..)), hes]

/-- What ends a range and does not stray is the end mark. -/
theorem marksEnd_of_ends {most : Nat} {e : Event} (h : e.ends = true)
    (hstrays : e.strays most = false) : e.marksEnd = true := by
  cases e with
  | received k status data =>
    have hstatus : status = Status.ok := by
      by_contra hne
      simp [strays, hne] at hstrays
    cases data with
    | none => simp [marksEnd, hstatus]
    | some size => simp [ends, hstatus] at h
  | _ => simp [ends] at h

end Event

/-! ## Channels that carry a block -/

/-- Channels on which packets are slices of a block, one behind the other and none of them empty.
Other responses and failures may come in between. -/
structure Channel.Carries {W C : Type} [Journaled W] (channels : Channel W C) (S : Bytes) where
  /-- The next packet begins at an offset of the block. -/
  At : Nat → C → W → Prop
  packet : ∀ {k c w r d v}, At k c w → channels.receive c w = (.ok r, d, v) → r.isPacket = true →
    r.data.getD [] ≠ [] ∧ r.data.getD [] <+: S.drop k ∧ At (k + r.dataSize) d v
  other : ∀ {k c w r d v}, At k c w → channels.receive c w = (.ok r, d, v) → r.isPacket = false →
    At k d v
  failed : ∀ {k c w f d v}, At k c w → channels.receive c w = (.error f, d, v) → At k d v
  note : ∀ {k c w} (n : Notice), At k c w → At k c (note n w)

namespace Channel.Carries

variable {W C : Type} [Journaled W] {channels : Channel W C} {S : Bytes} {k n most : Nat}
  {c d : C} {w v : W} {r : Response} {es : List Event}

/-- A response that is no packet loses nothing. -/
theorem at_other (K : channels.Carries S) (h : K.At (k + Event.lostIn most es) c w)
    (hr : channels.receive c w = (.ok r, d, v)) (hp : r.isPacket = false) :
    K.At (k + Event.lostIn most (es ++ [.heard n r])) d v := by
  rw [Event.lostIn_concat, Event.lost_heard, if_neg (by simp [hp])]
  exact K.other h hr hp

/-- A packet that is too large is lost. -/
theorem at_large (K : channels.Carries S) (h : K.At (k + Event.lostIn most es) c w)
    (hr : channels.receive c w = (.ok r, d, v)) (hp : r.isPacket = true)
    (hlarge : most < r.dataSize) : K.At (k + Event.lostIn most (es ++ [.heard n r])) d v := by
  rw [Event.lostIn_concat, Event.lost_heard, if_pos ⟨hp, hlarge⟩, ← Nat.add_assoc]
  exact (K.packet h hr hp).2.2

/-- Any other packet is followed by the next one. -/
theorem at_small (K : channels.Carries S) (h : K.At (k + Event.lostIn most es) c w)
    (hr : channels.receive c w = (.ok r, d, v)) (hp : r.isPacket = true)
    (hsmall : ¬most < r.dataSize) :
    K.At (k + r.dataSize + Event.lostIn most (es ++ [.heard n r])) d v := by
  rw [Event.lostIn_concat, Event.lost_heard, if_neg fun hlost => hsmall hlost.2, Nat.add_zero,
    Nat.add_right_comm]
  exact (K.packet h hr hp).2.2

end Channel.Carries

/-- Responses whose packets are slices of a block from an offset on. -/
def Slices (S : Bytes) : Nat → List Response → Prop
  | _, [] => True
  | k, r :: rest =>
    if r.isPacket then
      r.data.getD [] ≠ [] ∧ r.data.getD [] <+: S.drop k ∧ Slices S (k + r.dataSize) rest
    else Slices S k rest

/-- A scripted channel carries what its script says. -/
def ScriptedChannel.carries {W : Type} [Journaled W] (S : Bytes) :
    (ScriptedChannel.channel (W := W)).Carries S where
  At k c _ := Slices S k c.queue
  packet {k c w r d v} hat hr hp := by
    simp only [channel, receive] at hr
    split at hr
    · simp at hr
    · next hq =>
      simp only [Prod.mk.injEq, Except.ok.injEq] at hr
      obtain ⟨rfl, rfl, -⟩ := hr
      rw [hq, Slices, if_pos hp] at hat
      exact hat
  other {k c w r d v} hat hr hp := by
    simp only [channel, receive] at hr
    split at hr
    · simp at hr
    · next hq =>
      simp only [Prod.mk.injEq, Except.ok.injEq] at hr
      obtain ⟨rfl, rfl, -⟩ := hr
      rw [hq, Slices, if_neg (by simp [hp])] at hat
      exact hat
  failed {k c w f d v} hat hr := by
    simp only [channel, receive] at hr
    split at hr
    · simp only [Prod.mk.injEq] at hr
      obtain ⟨-, rfl, -⟩ := hr
      exact hat
    · simp at hr
  note _ hat := hat

/-! ## Asking for a packet -/

namespace RemoteReader

variable {W C : Type} [Journaled W] {channels : Channel W C} {S : Bytes} {n : Nat} {r : Request}
  {c : C}

/-- How asking a reader at a place for a packet can end, what is heard, and where the reader is
then.  `es` was heard before. -/
inductive Handed (S : Bytes) (n : Nat) (r : Request) (es : List Event) (p : UInt64) :
    Except Failure (Option Packet) → List Event → UInt64 → Prop
  /-- A slice is handed out.  It is as far behind the position as bytes were lost. -/
  | packet {q : Packet} {p' : UInt64} (hpos : 0 < q.readable)
    (hle : q.readable ≤ r.packetSize.toNat)
    (hbytes : q.unread <+: S.drop (p.toNat + Event.lostIn r.packetSize.toNat es))
    (hp' : p'.toNat = p.toNat + q.readable) :
    Handed S n r es p (.ok (some q)) [.received n .ok (some q.readable)] p'
  /-- A slice is larger than was agreed upon, and is lost. -/
  | oversized {size : Nat} (hlarge : r.packetSize.toNat < size) :
    Handed S n r es p (.error (.transport (.oversized size r.packetSize)))
      [.received n .ok (some size)] p
  /-- The worker reports a failure. -/
  | refused {status : Status} (message : Text) (size : Option Nat) (hstatus : status ≠ Status.ok) :
    Handed S n r es p (.error (.transport (.readRefused r.blockId p status message)))
      [.received n status size] p
  /-- The channel fails. -/
  | failed (f : Failure) : Handed S n r es p (.error f) [.receiveFailed n] p
  /-- The end mark came. -/
  | ended : Handed S n r es p (.ok none) [.received n .ok none] p
  /-- The range was over before. -/
  | finished (hends : es.any Event.ends = true) : Handed S n r es p (.ok none) [] p

/-- A reader that was not closed, on a channel where the next packet begins as far behind the
position as bytes were lost. -/
structure Following (K : channels.Carries S) (r : Request) (es : List Event)
    (s : RemoteReader C × Observed W) : Prop where
  attending : Attending r es s.1
  place : ∀ c, s.1.channel = some c →
    K.At (s.1.position.toNat + Event.lostIn r.packetSize.toNat es) c s.2.inner

variable {K : channels.Carries S} {s : RemoteReader C × Observed W} {es : List Event}

/-- A reader whose range is not over listens once. -/
theorem Following.listen (hS : S.length < UInt64.size) (h : Following K r es s)
    (hc : s.1.channel = some c) (hdone : s.1.done = false) : ∃ y x' o' e d,
      next (channels.tapped n) s.1 s.2 = (y, x', o') ∧ s.2.Saw [e] o' ∧
      Handed S n r es s.1.position y [e] x'.position ∧ x'.channel = some d ∧
      K.At (x'.position.toNat + Event.lostIn r.packetSize.toNat (es ++ [e])) d o'.inner := by
  have hplace := h.place c hc
  obtain ⟨x, o⟩ := s
  obtain rfl : x.request = r := h.attending.request_eq
  simp only at hc hdone hplace
  unfold next
  rw [hdone, hc]
  dsimp only
  rcases hr : channels.receive c o.inner with ⟨f | p, d, w⟩
  · rw [Channel.receive_tapped_failed hr]
    refine ⟨_, _, _, _, d, rfl, o.saw_see w _, .failed f, rfl, ?_⟩
    rw [Event.lostIn_concat]
    exact K.failed hplace hr
  rw [Channel.receive_tapped hr]
  have hseen := o.saw_see w (.heard n p)
  dsimp only
  by_cases hstatus : p.status = Status.ok
  · rw [if_neg (not_not_intro hstatus)]
    have hheard : Event.heard n p = .received n .ok (p.data.map List.length) := by
      rw [Event.heard, hstatus]
    cases hdata : p.data with
    | none =>
      have hother : p.isPacket = false := by simp [Response.isPacket, hdata]
      have hend : Handed S n x.request es x.position (.ok none) [.heard n p] x.position := by
        rw [hheard, hdata]
        exact .ended
      exact ⟨_, _, _, _, d, rfl, hseen, hend, rfl, K.at_other hplace hr hother⟩
    | some b =>
      have hpacket : p.isPacket = true := by simp [Response.isPacket, hstatus, hdata]
      have hsize : p.dataSize = b.length := by rw [Response.dataSize, hdata, Option.getD_some]
      dsimp only
      split
      · next hlarge =>
        have hover : Handed S n x.request es x.position
            (.error (.transport (.oversized b.length x.request.packetSize))) [.heard n p]
            x.position := by
          rw [hheard, hdata]
          exact .oversized hlarge
        exact ⟨_, _, _, _, d, rfl, hseen, hover, rfl, K.at_large hplace hr hpacket (hsize ▸ hlarge)⟩
      · next hsmall =>
        obtain ⟨hne, hbytes, -⟩ := K.packet hplace hr hpacket
        rw [hdata, Option.getD_some] at hne hbytes
        have hbound := hbytes.length_le
        rw [List.length_drop] at hbound
        have hpos : 0 < b.length := List.length_pos_iff.2 hne
        have hb : (UInt64.ofNat b.length).toNat = b.length := UInt64.toNat_ofNat_of_lt' (by omega)
        have hmoved : (x.position + UInt64.ofNat b.length).toNat = x.position.toNat + b.length := by
          rw [Offset.toNat_add (by omega), hb]
        have hhanded : Handed S n x.request es x.position (.ok (some (.ofBytes b))) [.heard n p]
            (x.position + UInt64.ofNat b.length) := by
          rw [hheard, hdata]
          exact .packet (q := .ofBytes b) hpos (Nat.le_of_not_lt hsmall) hbytes hmoved
        refine ⟨_, _, _, _, d, rfl, hseen, hhanded, rfl, ?_⟩
        show K.At ((x.position + UInt64.ofNat b.length).toNat + _) d w
        rw [hmoved, ← hsize]
        exact K.at_small hplace hr hpacket (hsize ▸ hsmall)
  · have hother : p.isPacket = false := by simp [Response.isPacket, hstatus]
    rw [if_pos hstatus]
    exact ⟨_, _, _, _, d, rfl, hseen.append (Observed.saw_note _ _), .refused _ _ hstatus, rfl,
      K.note _ (K.at_other hplace hr hother)⟩

/-- Asking for a packet ends in one of the ways listed. -/
theorem Following.next (hS : S.length < UInt64.size) (h : Following K r es s) : ∃ es',
    s.2.Saw es' (act (perform (channels.tapped n)) .next s).after.2 ∧
      Handed S n r es s.1.position (act (perform (channels.tapped n)) .next s).result es'
        (act (perform (channels.tapped n)) .next s).after.1.position ∧
      Following K r (es ++ es') (act (perform (channels.tapped n)) .next s).after := by
  obtain ⟨es', hsaw, hattending, -⟩ := h.attending.next channels n
  obtain ⟨c, hc⟩ := h.attending.attached
  refine ⟨es', hsaw, ?_⟩
  by_cases hdone : s.1.done = true
  · have hquiet : act (perform (channels.tapped n)) .next s = ⟨.next, s, .ok none, s⟩ := by
      simp only [act, perform, next_quiet (.inl hdone)]
    rw [hquiet] at hsaw hattending ⊢
    obtain rfl : es' = [] := List.append_cancel_left (hsaw.symm.trans (Observed.Saw.nothing s.2))
    rw [List.append_nil] at hattending ⊢
    exact ⟨.finished (h.attending.done_eq.symm.trans hdone), hattending, h.place⟩
  · obtain ⟨y, x', o', e, d, hn, hseen, hhanded, hd, hplace⟩ :=
      h.listen (n := n) hS hc (by simpa using hdone)
    have hact : act (perform (channels.tapped n)) .next s = ⟨.next, s, y, (x', o')⟩ := by
      simp only [act, perform, hn]
    rw [hact] at hsaw hattending ⊢
    obtain rfl : es' = [e] := List.append_cancel_left (hsaw.symm.trans hseen)
    refine ⟨hhanded, hattending, fun c' hc' => ?_⟩
    obtain rfl : d = c' := Option.some.inj (hd.symm.trans hc')
    exact hplace

/-! ## Runs -/

/-- A reader that is asked for packets only goes on to follow its channel. -/
theorem Following.run (hS : S.length < UInt64.size) {cs : List Call} (hcs : Call.close ∉ cs)
    (h : Following K r es s) :
    Following K r (es ++ eventsOf (acts (perform (channels.tapped n)) cs s))
      (endOf (perform (channels.tapped n)) cs s) := by
  induction cs generalizing s es with
  | nil =>
    rw [acts, eventsOf, List.flatMap_nil, List.append_nil]
    exact h
  | cons call cs ih =>
    rw [List.mem_cons, not_or] at hcs
    cases call with
    | close => exact absurd rfl hcs.1
    | next =>
      obtain ⟨es', hsaw, -, hnext⟩ := h.next (n := n) hS
      rw [acts_cons, eventsOf_cons, events_act hsaw, ← List.append_assoc]
      exact ih hcs.2 hnext

/-- What a client may rely on: a packet holds the bytes at the position of the reader, and that
there are no more packets is said because the end mark came. -/
structure Truthful (S : Bytes) (r : Request) (heard : List Event)
    (a : Act Call (Except Failure (Option Packet)) (RemoteReader C × Observed W)) : Prop where
  packet : ∀ q, a.result = .ok (some q) →
    q.unread = (S.drop a.before.1.position.toNat).take q.readable ∧
      1 ≤ q.readable ∧ q.readable ≤ r.packetSize.toNat ∧
      a.after.1.position.toNat = a.before.1.position.toNat + q.readable
  ended : a.result = .ok none → ∃ e ∈ heard, e.marksEnd = true

omit [Journaled W] in
/-- Where nothing strayed before, what is handed out is as it should be. -/
theorem Handed.truthful
    {a : Act Call (Except Failure (Option Packet)) (RemoteReader C × Observed W)}
    (h : Handed S n r es a.before.1.position a.result a.events a.after.1.position)
    (hes : ∀ e ∈ es, e.strays r.packetSize.toNat = false) : Truthful S r (es ++ a.events) a := by
  generalize a.events = es' at h ⊢
  constructor
  · intro q hq
    rw [hq] at h
    cases h with
    | packet hpos hle hbytes hp' =>
      rw [Event.lostIn_eq_zero hes, Nat.add_zero] at hbytes
      exact ⟨List.prefix_iff_eq_take.1 hbytes, hpos, hle, hp'⟩
  · intro hnone
    rw [hnone] at h
    generalize a.after.1.position = p' at h
    cases h with
    | ended => exact ⟨_, List.mem_append_right _ (List.mem_singleton_self _), rfl⟩
    | finished hends =>
      obtain ⟨e, he, hend⟩ := List.any_eq_true.1 hends
      exact ⟨e, List.mem_append_left _ he, Event.marksEnd_of_ends hend (hes e he)⟩

/-- **What a remote reader makes of the responses.**  On every channel that carries a block, and for
any number of calls before the reader is closed, whatever became of the earlier ones: asking for a
packet ends in one of the ways listed, and up to the first call that hears a response that strays the
reader is truthful. -/
theorem truthful_until (K : channels.Carries S) (hS : S.length < UInt64.size) {o o₁ : Observed W}
    {x : RemoteReader C} (h : attach (channels.tapped n) (some c) r o = (.ok x, o₁))
    (hplace : ∀ d, x.channel = some d → K.At r.offset.toNat d o₁.inner) {calls : List Call}
    {t₁ t₂ : Talk W C}
    {a : Act Call (Except Failure (Option Packet)) (RemoteReader C × Observed W)}
    (ht : acts (perform (channels.tapped n)) calls (x, o₁) = t₁ ++ a :: t₂)
    (hbefore : ∀ b ∈ t₁, b.call = .next) (hnext : a.call = .next) :
    Handed S n r (eventsOf t₁) a.before.1.position a.result a.events a.after.1.position ∧
      ((∀ e ∈ eventsOf t₁, e.strays r.packetSize.toNat = false) →
        Truthful S r (eventsOf t₁ ++ a.events) a) := by
  have hposition : x.position = r.offset := by
    unfold attach at h
    dsimp only at h
    split at h
    · simp at h
    · simp only [Prod.mk.injEq, Except.ok.injEq] at h
      rw [← h.1]
  have hstart : Following K r [] (x, o₁) := by
    refine ⟨(attach_attending h).1, fun d hd => ?_⟩
    rw [hposition]
    exact hplace d hd
  obtain ⟨cs, hcs, ht₁, hend, ha, -⟩ := acts_before ht hbefore
  have hfollowing := hstart.run (n := n) hS hcs
  rw [ht₁, hend, List.nil_append] at hfollowing
  obtain ⟨es', hsaw, hhanded, -⟩ := hfollowing.next (n := n) hS
  have hevents := events_act hsaw
  rw [hnext] at ha
  rw [ha] at hevents hhanded
  rw [← hevents] at hhanded
  exact ⟨hhanded, hhanded.truthful⟩

/-! ## Readers that are not truthful -/

/-- Ten bytes, and a request for them in packets of four. -/
def digits : Bytes := [0, 1, 2, 3, 4, 5, 6, 7, 8, 9]

def forDigits : Request := { length := 10, packetSize := 4 }

/-- The worker sends eight bytes at once, then the other two. -/
def generous : ScriptedChannel where
  queue := [{ data := some (digits.take 8) }, { data := some (digits.drop 8) }, Response.endMark]

/-- The worker has lost the block. -/
def bereft : ScriptedChannel where
  queue := [{ status := .notFound }]

/-- A reader for the ten bytes on a channel that its request went out on. -/
def askingOn (ch : ScriptedChannel) : RemoteReader ScriptedChannel × Observed Journal :=
  ({ channel := some { ch with sends := 1 }, request := forDigits, position := 0 },
    unseen.see (.sent 0 forDigits))

theorem slices_generous : Slices digits 0 generous.queue := by
  simp [Slices, generous, digits, Response.isPacket, Response.dataSize, Response.endMark]

/-- After eight bytes at once are refused, the reader hands out the other two as if they were the
first.  After the worker reported that it has no such block, the reader says that the range is at its
end. -/
theorem not_truthful :
    Slices digits 0 generous.queue ∧
    (∃ a b, acts (perform (ScriptedChannel.channel.tapped 0)) [.next, .next] (askingOn generous) =
        [a, b] ∧
      a.result = .error (.transport (.oversized 8 4)) ∧ b.before.1.position = 0 ∧
      (∃ q, b.result = .ok (some q) ∧ q.unread = [8, 9]) ∧
      ¬Truthful digits forDigits (a.events ++ b.events) b) ∧
    Slices digits 0 bereft.queue ∧
    ∃ a b, acts (perform (ScriptedChannel.channel.tapped 0)) [.next, .next] (askingOn bereft) =
        [a, b] ∧
      a.result = .error (.transport (.readRefused 0 0 .notFound [])) ∧ b.result = .ok none ∧
      ¬Truthful digits forDigits (a.events ++ b.events) b := by
  refine ⟨slices_generous, ⟨_, _, rfl, rfl, rfl, ⟨_, rfl, rfl⟩, ?_⟩, trivial, ⟨_, _, rfl, rfl, rfl, ?_⟩⟩
  · intro h
    exact absurd (h.packet _ rfl).1 (by decide)
  · intro h
    exact absurd (h.ended rfl) (by decide)

/-- The second call on the channel of eight bytes at once hands out what is listed. -/
theorem truthful_until_generous :
    attach (ScriptedChannel.channel.tapped 0) (some generous) forDigits unseen =
        (.ok (askingOn generous).1, (askingOn generous).2) ∧
      ∃ a b, acts (perform (ScriptedChannel.channel.tapped 0)) [.next, .next]
          ((askingOn generous).1, (askingOn generous).2) = [a] ++ b :: [] ∧
        (∀ a' ∈ [a], a'.call = .next) ∧ b.call = .next ∧
        Handed digits 0 forDigits (eventsOf [a]) b.before.1.position b.result b.events
            b.after.1.position ∧
          ((∀ e ∈ eventsOf [a], e.strays 4 = false) →
            Truthful digits forDigits (eventsOf [a] ++ b.events) b) := by
  have hattach : attach (ScriptedChannel.channel.tapped 0) (some generous) forDigits unseen =
      (.ok (askingOn generous).1, (askingOn generous).2) := rfl
  have hcalls (a : Act Call (Except Failure (Option Packet))
      (RemoteReader ScriptedChannel × Observed Journal)) (ha : a.call = .next) :
      ∀ a' ∈ [a], a'.call = .next := by
    intro a' ha'
    rw [List.mem_singleton.1 ha']
    exact ha
  have hplace (d : ScriptedChannel) (hd : (askingOn generous).1.channel = some d) :
      Slices digits 0 d.queue := by
    obtain rfl := Option.some.inj hd
    exact slices_generous
  have ht : acts (perform (ScriptedChannel.channel.tapped 0)) [.next, .next]
      ((askingOn generous).1, (askingOn generous).2) = [_] ++ _ :: [] := rfl
  exact ⟨hattach, _, _, ht, hcalls _ rfl, rfl,
    truthful_until (ScriptedChannel.carries digits) (by decide) hattach hplace ht (hcalls _ rfl) rfl⟩

end RemoteReader

end BlockAccess
