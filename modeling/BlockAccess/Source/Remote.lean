import BlockAccess.Channel
import BlockAccess.Source

/-!
# Remote blocks

A block that a worker keeps elsewhere is asked for over a data channel.  Each reader has a channel
of its own: it sends the request for its range when it is made and then takes the responses one by
one.

The range is over when the end mark arrives, or when the worker reports a failure.  A reader that is
closed before that takes its request back, and receives what is still under way up to the mark or
the worker's confirmation.  The channel leaves the reader first, so a reader is closed whatever
becomes of that.
-/

namespace BlockAccess

open Wire (Request Response Status)

/-- A reader for a range of a remote block. -/
structure RemoteReader (C : Type) where
  /-- The channel, until the reader is closed. -/
  channel : Option C
  request : Request
  position : UInt64
  /-- Whether the worker has ended the range. -/
  done : Bool := false

/-- A remote block: where it is asked for, by what request, and how channels are made and behave. -/
structure RemoteBlock (W C : Type) where
  address : Address
  request : Request
  channels : Channel W C
  dial : Dialler W C

namespace RemoteReader

variable {W C : Type}

/-- Makes a reader on a channel and sends its request. -/
def attach (channels : Channel W C) (channel : Option C) (r : Request) (w : W) :
    Except Failure (RemoteReader C) × W :=
  match channel with
  | none => (.error (.transport (.noChannel r.blockId)), w)
  | some c =>
    match channels.send r c w with
    | (.error f, _, w) => (.error f, w)
    | (.ok (), c, w) => (.ok { channel := some c, request := r, position := r.offset }, w)

variable [Journaled W]

/-- The next packet.  A packet that is larger than was agreed upon is refused, and a response that
reports a failure ends the range. -/
def next (channels : Channel W C) (r : RemoteReader C) (w : W) :
    Except Failure (Option Packet) × RemoteReader C × W :=
  match r.done, r.channel with
  | true, _ | _, none => (.ok none, r, w)
  | false, some c =>
    match channels.receive c w with
    | (.error f, c, w) => (.error f, { r with channel := some c }, w)
    | (.ok response, c, w) =>
      let r := { r with channel := some c }
      if response.status ≠ Status.ok then
        (.error
          (.transport (.readRefused r.request.blockId r.position response.status
            response.message)),
          { r with done := true },
          note (.readRefused r.request.blockId r.position response.status response.message) w)
      else
        match response.data with
        | none => (.ok none, { r with done := true }, w)
        | some b =>
          if r.request.packetSize.toNat < b.length then
            (.error (.transport (.oversized b.length r.request.packetSize)), r, w)
          else
            (.ok (some (Packet.ofBytes b)),
              { r with position := r.position + UInt64.ofNat b.length }, w)

/-- Receives until the range is over: packets are dropped, a failure that the worker reports is
noted. -/
def drain (channels : Channel W C) (block : UInt64) (c : C) (w : W) : Except Failure Unit × C × W :=
  match _h : channels.receive c w with
  | (.error f, c, w) => (.error f, c, w)
  | (.ok response, c', w) =>
    if response.isPacket then drain channels block c' w
    else if response.status = Status.cancelled || response.status = Status.ok then (.ok (), c', w)
    else (.ok (), c', note (.cancelFailed block response.status response.message) w)
termination_by channels.pending c
decreasing_by exact Nat.lt_of_le_of_lt (Nat.le_add_right ..) (channels.pending_receive _h)

/-- Takes the request back and receives what is under way. -/
def cancel (channels : Channel W C) (request : Request) (c : C) (w : W) :
    Except Failure Unit × C × W :=
  match channels.send { request with cancel := true } c w with
  | (.error f, c, w) => (.error f, c, w)
  | (.ok (), c, w) => drain channels request.blockId c w

/-- Closes the reader, and with it its channel.  Closing it again does nothing. -/
def close (channels : Channel W C) (r : RemoteReader C) (w : W) :
    Except Failure Unit × RemoteReader C × W :=
  match r.channel with
  | none => (.ok (), r, w)
  | some c =>
    let r := { r with channel := none }
    if r.done then
      match channels.close c w with
      | (result, _, w) => (result, r, w)
    else
      match cancel channels r.request c w with
      | (.error f, _, w) => (.error f, r, w)
      | (.ok (), c, w) =>
        match channels.close c w with
        | (result, _, w) => (result, { r with done := true }, w)

end RemoteReader

namespace RemoteBlock

variable {W C : Type}

/-- A remote block; the packet size must be positive, and there must be a dialler. -/
def make (address : Address) (request : Request) (channels : Channel W C)
    (dial : Option (Dialler W C)) : Except Failure (RemoteBlock W C) :=
  if request.packetSize = 0 then .error (.misuse .packetSizeZero)
  else
    match dial with
    | none => .error (.misuse .noDialler)
    | some dial => .ok { address, request, channels, dial }

/-- The request for a range. -/
def requestFor (b : RemoteBlock W C) (offset length : UInt64) : Request :=
  { b.request with offset, length, cancel := false }

/-- Makes a reader for a range. -/
def create (b : RemoteBlock W C) (offset length : UInt64) (w : W) :
    Except Failure (RemoteReader C) × W :=
  match b.dial b.address w with
  | (.error f, w) => (.error f, w)
  | (.ok c, w) => RemoteReader.attach b.channels c (b.requestFor offset length) w

variable [Journaled W]

/-- A remote block as a source of packets. -/
def source (b : RemoteBlock W C) : Source W (RemoteReader C) where
  shortCircuit := false
  create := b.create
  next := RemoteReader.next b.channels
  position := RemoteReader.position
  close := RemoteReader.close b.channels
  release _ w := w
  shutDown w := (.ok (), note (.closingRemote b.request.blockId b.address) w)

/-- A reader has at most what its channel still delivers. -/
def supply (b : RemoteBlock W C) : b.source.Supply where
  left r := (r.channel.map b.channels.pending).getD 0
  left_next := by
    intro r w p r' w' h
    simp only [source, RemoteReader.next] at h
    split at h
    · simp at h
    · simp at h
    next c _ hc =>
    split at h
    · simp at h
    next response c' w₁ hr =>
    have hlt := b.channels.pending_receive hr
    split at h
    · simp at h
    split at h
    · simp at h
    next data hdata =>
    split at h
    · simp at h
    simp only [Prod.mk.injEq, Except.ok.injEq, Option.some.injEq] at h
    obtain ⟨rfl, rfl, -⟩ := h
    simp only [Response.dataSize, hdata, Option.getD_some] at hlt
    simp only [hc, Option.map_some, Option.getD_some, Packet.readable_ofBytes]
    omega

end RemoteBlock

end BlockAccess
