import BlockAccess.Channel
import BlockAccess.Files.ReadStream
import BlockAccess.Packet

/-!
# Traces

What a client asks of its transports can be watched from outside.  `Observed W` is a state `W`
together with the events seen so far.  The `observed` forms of diallers and channels here, and of
sources of packets elsewhere, do what the transport under them does and add an event for it.  That
transport works on `W` alone, so it cannot tell and cannot touch the events.

An event says how the call that it stands for ended.
-/

namespace BlockAccess

/-- What a transport was asked to do. -/
inductive Event where
  /-- A channel to an address was asked for. -/
  | dialled (address : Address)
  | sent (channel : Nat) (request : Wire.Request)
  | received (channel : Nat) (status : Wire.Status) (data : Option Nat)
  | receiveFailed (channel : Nat)
  | channelClosed (channel : Nat)
  /-- Reader number `reader` was asked for; `made` says whether it came to be. -/
  | created (reader : Nat) (offset length : UInt64) (made : Bool)
  /-- A reader handed out a packet of `size` bytes. -/
  | packet (reader : Nat) (serial size : Nat)
  /-- A reader was at its end. -/
  | exhausted (reader : Nat)
  | packetFailed (reader : Nat)
  /-- A packet was given back with some bytes unread. -/
  | released (serial size unread : Nat)
  | readerClosed (reader : Nat) (cleanly : Bool)
  | sourceClosed (cleanly : Bool)
  deriving DecidableEq, Repr

/-- A state and what was seen of its transports. -/
structure Observed (W : Type) where
  inner : W
  /-- The events, the latest last. -/
  events : Array Event := #[]
  /-- The number of readers asked for. -/
  readers : Nat := 0
  /-- The number of packets handed out. -/
  packets : Nat := 0

namespace Observed

variable {W α : Type}

/-- The state with one more event. -/
def see (e : Event) (o : Observed W) : Observed W := { o with events := o.events.push e }

/-- The state with another inner state. -/
def withInner (o : Observed W) (w : W) : Observed W := { o with inner := w }

instance [Journaled W] : Journaled (Observed W) := ⟨fun n o => o.withInner (note n o.inner)⟩

instance [Files.Filed W] : Files.Filed (Observed W) :=
  ⟨fun o => Files.Filed.files o.inner, fun s o => o.withInner (Files.Filed.withFiles s o.inner)⟩

instance [Wired W] : Wired (Observed W) where
  connect o :=
    match Wired.connect o.inner with
    | (n, w) => (n, o.withInner w)
  transmit n r o := o.withInner (Wired.transmit n r o.inner)

instance [Counting W] : Counting (Observed W) where
  count o :=
    match Counting.count o.inner with
    | (n, w) => (n, o.withInner w)

end Observed

namespace Dialler

variable {W C : Type}

/-- A dialler under observation. -/
def observed (dial : Dialler W C) : Dialler (Observed W) C := fun address o =>
  match dial address o.inner with
  | (r, w) => (r, (o.withInner w).see (.dialled address))

/-- A dialler on an observed state that is not watched itself. -/
def unobserved (dial : Dialler W C) : Dialler (Observed W) C := fun address o =>
  match dial address o.inner with
  | (r, w) => (r, o.withInner w)

end Dialler

/-- Channels under observation, told apart by a number of theirs. -/
def Channel.observed {W C : Type} (number : C → Nat) (ch : Channel W C) :
    Channel (Observed W) C where
  send r c o :=
    match ch.send r c o.inner with
    | (result, c', w) => (result, c', (o.withInner w).see (.sent (number c) r))
  receive c o :=
    match ch.receive c o.inner with
    | (.ok r, c', w) =>
      (.ok r, c',
        (o.withInner w).see (.received (number c) r.status (r.data.map List.length)))
    | (.error f, c', w) => (.error f, c', (o.withInner w).see (.receiveFailed (number c)))
  close c o :=
    match ch.close c o.inner with
    | (result, c', w) => (result, c', (o.withInner w).see (.channelClosed (number c)))
  pending := ch.pending
  pending_receive := by
    intro c o r c' o' h
    split at h
    · next hr =>
      simp only [Prod.mk.injEq, Except.ok.injEq] at h
      obtain ⟨rfl, rfl, -⟩ := h
      exact ch.pending_receive hr
    · simp at h

end BlockAccess
