import BlockAccess.Proofs.Channel.Tapped
import BlockAccess.Proofs.Stream.Bounds
import BlockAccess.Proofs.Stream.Visits

/-!
# Where the failure of a read comes from

A read that fails either passes on what its source told it, or it has one of two reasons of its own:
a reader handed out too many empty packets in a row, or a packet with more bytes than were still
wanted.  Each of these shows in what was seen of the source, and `Source.Blames` puts failure and
event together.

`blames_fetch` says that the event comes last in a read in sequence.  In a read at a position, closing
the reader may follow.  That bytes are taken from a packet which does not have them is no reason that
occurs: a read in sequence takes a portion, and a read at a position takes all there is.
-/

namespace BlockAccess

variable {W R : Type}

/-- A failure of a read, and the event in which it shows. -/
inductive Source.Blames (src : Source W R) (block : UInt64) : Failure → Event → Prop
  /-- A reader could not be made. -/
  | create {offset length : UInt64} {f : Failure} {w w' : W} (k : Nat)
    (h : src.create offset length w = (.error f, w')) :
    Blames src block f (.created k offset length false)
  /-- A reader could not hand out a packet. -/
  | next {r r' : R} {f : Failure} {w w' : W} (k : Nat) (h : src.next r w = (.error f, r', w')) :
    Blames src block f (.packetFailed k)
  /-- A reader could not be closed. -/
  | close {r r' : R} {f : Failure} {w w' : W} (k : Nat) (h : src.close r w = (.error f, r', w')) :
    Blames src block f (.readerClosed k false)
  /-- An empty packet was given back, and it was one too many. -/
  | empties (serial size : Nat) :
    Blames src block (.transport (.emptyPackets block)) (.released serial size 0)
  /-- A packet was given back that had more bytes than were still wanted. -/
  | overrun (serial size : Nat) {unread left : Nat} (h : left < unread) :
    Blames src block (.transport (.overrun unread left)) (.released serial size unread)

/-! ## What is seen last -/

/-- A reader was closed, cleanly or not. -/
def Event.ClosesReader (cleanly : Bool) (e : Event) : Prop := ∃ k, e = .readerClosed k cleanly

namespace Observed

/-- Something was seen between two states, and the last of it is `P`. -/
def SawLast (o : Observed W) (P : Event → Prop) (o' : Observed W) : Prop :=
  ∃ es e, o.Saw (es ++ [e]) o' ∧ P e

variable {o o₁ o₂ : Observed W} {es : List Event} {P Q : Event → Prop}

theorem SawLast.imp (h : o.SawLast P o₁) (himp : ∀ e, P e → Q e) : o.SawLast Q o₁ := by
  obtain ⟨es, e, hes, he⟩ := h
  exact ⟨es, e, hes, himp e he⟩

theorem Saw.last {e : Event} (h : o.Saw [e] o₁) (he : P e) : o.SawLast P o₁ := ⟨[], e, h, he⟩

/-- What is seen last does not depend on what was seen before. -/
theorem Saw.sawLast (h : o.Saw es o₁) (h' : o₁.SawLast P o₂) : o.SawLast P o₂ := by
  obtain ⟨es', e, hes, he⟩ := h'
  refine ⟨es ++ es', e, ?_, he⟩
  rw [List.append_assoc]
  exact h.append hes

/-- What is noted down is not seen. -/
theorem Saw.noted [Journaled W] (h : o.Saw es o₁) (hnoted : o₂ = o₁ ∨ ∃ n, o₂ = note n o₁) :
    o.Saw es o₂ := by
  rcases hnoted with rfl | ⟨n, rfl⟩
  · exact h
  · have hboth := h.append (saw_note o₁ n)
    rwa [List.append_nil] at hboth

end Observed

namespace Stream

/-- What was seen between the states of a step. -/
theorem Step.events_mk {op : Op} {p q : Stream (Numbered R) × Observed W} {y : Outcome}
    {es : List Event} (h : p.2.Saw es q.2) :
    (⟨op, p, y, q⟩ : Step (Observed W) (Numbered R)).events = es :=
  Step.events_eq h

theorem mem_events {st : Step (Observed W) (Numbered R)} {es es' : List Event} {e : Event}
    (h : st.before.2.Saw (es ++ e :: es') st.after.2) : e ∈ st.events := by
  rw [Step.events_eq h]
  exact List.mem_append_right _ (List.mem_cons_self ..)

end Stream

/-! ## What is seen of one operation -/

namespace Source

section Operations

variable {src : Source W R} {o o' : Observed W} {r r' : Numbered R}

/-- Asking for a reader is seen. -/
theorem saw_refused (block : UInt64) {offset length : UInt64} {f : Failure}
    (h : src.observed.create offset length o = (.error f, o')) :
    o.Saw [.created o.readers offset length false] o' ∧
      src.Blames block f (.created o.readers offset length false) := by
  rcases hc : src.create offset length o.inner with ⟨x, w⟩
  simp only [observed, hc, Prod.mk.injEq] at h
  obtain ⟨hx, rfl⟩ := h
  cases x with
  | error g =>
    obtain rfl : g = f := Except.error.inj hx
    exact ⟨Observed.saw_see o w _, .create _ hc⟩
  | ok r => simp [Except.map] at hx

/-- A reader that comes to be has the next number. -/
theorem saw_made {offset length : UInt64} (h : src.observed.create offset length o = (.ok r, o')) :
    r.number = o.readers ∧ o.Saw [.created o.readers offset length true] o' := by
  rcases hc : src.create offset length o.inner with ⟨x, w⟩
  simp only [observed, hc, Prod.mk.injEq] at h
  obtain ⟨hx, rfl⟩ := h
  cases x with
  | error g => simp [Except.map] at hx
  | ok q =>
    rw [← Except.ok.inj hx]
    exact ⟨rfl, Observed.saw_see o w _⟩

theorem saw_failed (block : UInt64) {f : Failure}
    (h : src.observed.next r o = (.error f, r', o')) :
    r'.number = r.number ∧ o.Saw [.packetFailed r.number] o' ∧
      src.Blames block f (.packetFailed r.number) := by
  simp only [observed] at h
  split at h
  · next hn =>
    simp only [Prod.mk.injEq, Except.error.injEq] at h
    obtain ⟨rfl, rfl, rfl⟩ := h
    exact ⟨rfl, Observed.saw_see o _ _, .next _ hn⟩
  · simp at h
  · simp at h

theorem saw_exhausted (h : src.observed.next r o = (.ok none, r', o')) :
    r'.number = r.number ∧ o.Saw [.exhausted r.number] o' := by
  simp only [observed] at h
  split at h
  · simp at h
  · simp only [Prod.mk.injEq] at h
    obtain ⟨-, rfl, rfl⟩ := h
    exact ⟨rfl, Observed.saw_see o _ _⟩
  · simp at h

theorem saw_handed {p : Packet} (h : src.observed.next r o = (.ok (some p), r', o')) :
    r'.number = r.number ∧ o.Saw [.packet r.number p.serial p.readable] o' := by
  simp only [observed] at h
  split at h
  · simp at h
  · simp at h
  · simp only [Prod.mk.injEq, Except.ok.injEq, Option.some.injEq] at h
    obtain ⟨rfl, rfl, rfl⟩ := h
    exact ⟨rfl, Observed.saw_see o _ _⟩

theorem saw_release (src : Source W R) (p : Packet) (o : Observed W) :
    o.Saw [.released p.serial p.size p.readable] (src.observed.release p o) :=
  Observed.saw_see o _ _

/-- Closing a reader is seen, with how it went. -/
theorem saw_close (block : UInt64) {x : Except Failure Unit}
    (h : src.observed.close r o = (x, r', o')) :
    o.Saw [.readerClosed r.number (succeeded x)] o' ∧
      ∀ f, x = .error f → src.Blames block f (.readerClosed r.number false) := by
  rcases hc : src.close r.reader o.inner with ⟨y, reader, w⟩
  simp only [observed, hc, Prod.mk.injEq] at h
  obtain ⟨rfl, -, rfl⟩ := h
  refine ⟨Observed.saw_see o w _, fun f hf => ?_⟩
  rw [hf] at hc
  exact .close _ hc

/-- An empty packet is handed out and given back. -/
theorem saw_empty [Journaled W] {p : Packet} (hempty : p.readable = 0) (n : Notice)
    (h : src.observed.next r o = (.ok (some p), r', o')) :
    o.Saw [.packet r.number p.serial 0, .released p.serial p.size 0]
      (src.observed.release p (note n o')) := by
  have hhanded := (saw_handed h).2
  have hreleased := src.saw_release p (note n o')
  rw [hempty] at hhanded hreleased
  exact hhanded.append ((Observed.saw_note o' n).append hreleased)

end Operations

/-! ## Pulling -/

variable [Journaled W] {src : Source W R} {o o' : Observed W} {r r' : Numbered R}
  {block : UInt64} {f : Failure}

/-- The reason for giving up a reader is the last empty packet. -/
theorem blames_empty {p : Packet} (hempty : p.readable = 0) (n : Notice)
    (h : src.observed.next r o = (.ok (some p), r', o')) :
    o.SawLast (src.Blames block (.transport (.emptyPackets block)))
      (src.observed.release p (note n o')) :=
  ⟨[_], _, saw_empty hempty n h, .empties _ _⟩

/-- A reader that could not be pulled from is to blame, unless there was no budget. -/
theorem blames_pull {budget : Nat}
    (h : src.observed.pull block budget r o = (.error f, r', o')) :
    o.SawLast (src.Blames block f) o' ∨
      budget = 0 ∧ f = .transport (.emptyPackets block) ∧ o' = o := by
  induction budget generalizing r o with
  | zero =>
    simp only [pull, Prod.mk.injEq, Except.error.injEq] at h
    obtain ⟨rfl, -, rfl⟩ := h
    exact .inr ⟨rfl, rfl, rfl⟩
  | succ budget ih =>
    left
    unfold pull at h
    split at h
    · next p r₁ o₁ hnext =>
      split at h
      · next hnil =>
        have hempty : p.readable = 0 := by
          rw [Packet.readable, List.isEmpty_iff.1 hnil, List.length_nil]
        rcases ih h with hlast | ⟨-, rfl, rfl⟩
        · exact (saw_empty hempty _ hnext).sawLast hlast
        · exact blames_empty hempty _ hnext
      · simp at h
    · next x r₁ o₁ _ hnext =>
      simp only [Prod.mk.injEq] at h
      obtain ⟨rfl, -, rfl⟩ := h
      obtain ⟨-, hsaw, hblames⟩ := saw_failed block hnext
      exact hsaw.last hblames

end Source

namespace Stream

variable {src : Source W R} {o o' : Observed W} {s s' : Stream (Numbered R)} {f : Failure}

/-! ## Reads in sequence -/

/-- Giving back the current packet adds to what was seen. -/
theorem saw_releasePacket (src : Source W R) (s : Stream (Numbered R)) (o : Observed W) :
    ∃ es, o.Saw es (s.releasePacket src.observed o).2 := by
  unfold releasePacket
  split
  · exact ⟨[], Observed.Saw.nothing o⟩
  · next p _ => exact ⟨_, src.saw_release p o⟩

/-- Giving up a reader ends with closing it, and closing it is to blame if that fails. -/
theorem saw_dropReader {r : Numbered R} {x : Except Failure Unit} (block : UInt64)
    (hr : s.reader = some r) (h : s.dropReader src.observed o = (x, s', o')) :
    o.SawLast (· = .readerClosed r.number (Source.succeeded x)) o' ∧
      ∀ f, x = .error f → src.Blames block f (.readerClosed r.number false) := by
  obtain ⟨es, hes⟩ := saw_releasePacket src s o
  rcases hc : src.observed.close r (s.releasePacket src.observed o).2 with ⟨y, r', o₁⟩
  rw [dropReader_of_some hr hc] at h
  simp only [Prod.mk.injEq] at h
  obtain ⟨rfl, -, rfl⟩ := h
  obtain ⟨hsaw, hblames⟩ := Source.saw_close block hc
  exact ⟨hes.sawLast (hsaw.last rfl), hblames⟩

/-- Giving up a stream fails if it has a reader that cannot be closed, and that is seen last. -/
theorem blames_dropReader (block : UInt64) (h : s.dropReader src.observed o = (.error f, s', o')) :
    s.reader.isSome ∧ o.SawLast (fun e => e.ClosesReader false ∧ src.Blames block f e) o' := by
  cases hr : s.reader with
  | none =>
    rw [dropReader_of_none hr] at h
    simp at h
  | some r =>
    obtain ⟨⟨es, e, hes, rfl⟩, hblames⟩ := saw_dropReader block hr h
    exact ⟨rfl, es, _, hes, ⟨r.number, rfl⟩, hblames f rfl⟩

variable [Journaled W]

/-- A stream that could not be filled has a reader to blame, or that there is none. -/
theorem blames_fill (h : s.fill src.observed o = (.error f, s', o')) :
    o.SawLast (src.Blames s.block f) o' := by
  unfold fill at h
  split at h
  · next g s₁ o₁ hreader =>
    simp only [Prod.mk.injEq, Except.error.injEq] at h
    obtain ⟨rfl, -, rfl⟩ := h
    unfold withReader at hreader
    split at hreader
    · simp at hreader
    split at hreader
    · next hc =>
      simp only [Prod.mk.injEq, Except.error.injEq] at hreader
      obtain ⟨rfl, -, rfl⟩ := hreader
      obtain ⟨hsaw, hblames⟩ := Source.saw_refused s.block hc
      exact (Observed.saw_note o _).sawLast (hsaw.last hblames)
    · simp at hreader
  next r s₁ o₁ hreader =>
  obtain ⟨hs₁, -⟩ := withReader_snd hreader
  obtain ⟨before, hbefore, -⟩ :=
    (upholds_asked src s.position s.rest o.events.toList).withReader (.now _ _ o) hreader
  split at h
  · simp at h
  obtain ⟨es, hrel⟩ := saw_releasePacket src s₁ o₁
  have hblock : (s₁.releasePacket src.observed o₁).1.block = s.block := by
    rw [releasePacket_fst, hs₁]
  split at h
  next s₂ o₂ h₂ =>
  rw [h₂] at hrel hblock
  dsimp only at hblock
  split at h
  · next g r' o₃ hpull =>
    simp only [Prod.mk.injEq, Except.error.injEq] at h
    obtain ⟨rfl, -, rfl⟩ := h
    rw [hblock] at hpull
    rcases Source.blames_pull hpull with hlast | ⟨hzero, -⟩
    · exact (Observed.Saw.append hbefore hrel).sawLast hlast
    · exact absurd hzero (by decide)
  · simp at h

/-- **What is to blame for a read in sequence shows last.** -/
theorem blames_fetch {n : UInt64} (h : s.fetch src.observed n o = (.error f, s', o')) :
    o.SawLast (src.Blames s.block f) o' := by
  unfold fetch at h
  split at h
  · next g s₁ o₁ hfill =>
    simp only [Prod.mk.injEq, Except.error.injEq] at h
    obtain ⟨rfl, -, rfl⟩ := h
    exact blames_fill hfill
  next s₁ o₁ hfill =>
  obtain ⟨before, hbefore, -⟩ :=
    (upholds_asked src s.position s.rest o.events.toList).fill (.now _ _ o) hfill
  split at h
  · split at h
    · next g s₂ o₂ hdrop =>
      simp only [Prod.mk.injEq, Except.error.injEq] at h
      obtain ⟨rfl, -, rfl⟩ := h
      obtain ⟨-, hlast⟩ := blames_dropReader s.block hdrop
      exact Observed.Saw.sawLast hbefore (hlast.imp fun _ he => he.2)
    · simp at h
  · next p _ =>
    rw [Packet.take_portion] at h
    simp at h

end Stream

end BlockAccess
