import BlockAccess.Opening
import BlockAccess.Proofs.Source.Remote

/-!
# The packet sizes that settings admit, and frames

Two rules bound the packets of a remote block.  A client takes the packet size from its settings,
where any positive size that can be written will do, and refuses packets that are larger.  A frame
has a body of at most `Wire.Frame.bodyLimit` bytes, four of which are taken by the fixed part of a
response.  Neither rule knows of the other.

Between them every packet gets through that keeps to both (`Carried`).  A packet that keeps to the
first only cannot be written at all, so whether all packets of a size that was agreed upon get
through depends on the size, and `carried_iff` says how.
-/

namespace BlockAccess
namespace RemoteBlock

open Wire (Response)
open Wire.Response (fixedSize)
open Wire.Frame (bodyLimit headerSize)

variable {W : Type} [Journaled W] [Wired W]

/-- A packet gets from a worker to a client of a block: it can be written, the header of its frame
is accepted, it is received as it was sent whatever follows it and however the bytes come in, and
a reader of the block that still has to hand out packets hands it out. -/
structure Carried (b : RemoteBlock W Connection) (data : Bytes) : Prop where
  written : Response.encode .ok [] data = .ok (Response.packet data).frame
  header : Wire.Frame.Header.decode? ((Response.packet data).frame.take headerSize) =
    some { length := fixedSize + data.length, kind := .response }
  received : ∀ (c : Connection) (w : W) (rest : Bytes), c.isOpen = true →
    c.unread = (Response.packet data).frame ++ rest →
    ∃ d w', c.receive w = (.ok (Response.packet data), d, w') ∧ d.unread = rest ∧
      ∀ r : RemoteReader Connection, r.channel = some c → r.done = false →
        r.request.packetSize = b.request.packetSize →
        b.source.next r w = (.ok (some (Packet.ofBytes data)),
          { r with channel := some d, position := r.position + UInt64.ofNat data.length }, w')

/-! ## What settings agree upon -/

section Settings

variable {m : Mount} {s : Settings} {network : Network} {address : Address}
  {request : Wire.Request} {b : RemoteBlock W Connection}

/-- A block from settings has the packet size of the settings, which is positive, and framed
channels. -/
theorem ofSettings_eq_ok (h : ofSettings m s network address request = .ok b) :
    m.packetSize s .remotePacketSize = .ok b.request.packetSize ∧
      0 < b.request.packetSize.toNat ∧ b.channels = Connection.channel := by
  unfold ofSettings at h
  split at h
  · simp at h
  next size hsize =>
  split at h
  · simp at h
  unfold make at h
  split at h
  · simp at h
  next hne =>
  obtain rfl := Except.ok.inj h
  refine ⟨hsize, Nat.pos_of_ne_zero fun h0 => hne ?_, rfl⟩
  exact UInt64.toNat_inj.1 h0

end Settings

/-! ## Readers keep to it -/

omit [Journaled W] [Wired W] in
/-- A new reader asks for packets of the block's size. -/
theorem packetSize_create {C : Type} {b : RemoteBlock W C} {offset length : UInt64} {w w' : W}
    {r : RemoteReader C} (h : b.create offset length w = (.ok r, w')) :
    r.request.packetSize = b.request.packetSize := by
  unfold create at h
  split at h
  · simp at h
  unfold RemoteReader.attach at h
  split at h
  · simp at h
  split at h
  · simp at h
  simp only [Prod.mk.injEq, Except.ok.injEq] at h
  obtain ⟨rfl, -⟩ := h
  rfl

omit [Wired W] in
/-- A reader goes on asking for what it asked for. -/
theorem request_next {C : Type} (channels : Channel W C) (r : RemoteReader C) (w : W) :
    (RemoteReader.next channels r w).2.1.request = r.request := by
  unfold RemoteReader.next
  split
  · rfl
  · rfl
  split
  · rfl
  dsimp only
  split
  · rfl
  split
  · rfl
  split
  · rfl
  · rfl

/-! ## Packets on the way -/

theorem carried_of_le {b : RemoteBlock W Connection} (hb : b.channels = Connection.channel)
    {data : Bytes} (hne : data ≠ []) (hsize : data.length ≤ b.request.packetSize.toNat)
    (hframe : fixedSize + data.length ≤ bodyLimit) : b.Carried data where
  written := (Response.sendable_packet hframe).toFrame_eq
  header := (Response.sendable_packet hframe).header
  received c w rest hopen hbytes := by
    have hsendable : (Response.packet data).Sendable := Response.sendable_packet hframe
    obtain ⟨d, w', hreceive, hrest, -⟩ := Connection.receive_frame hopen hsendable hbytes w
    rw [Response.received_packet hne] at hreceive
    refine ⟨d, w', hreceive, hrest, ?_⟩
    intro r hchannel hdone hagreed
    have hfits : ¬r.request.packetSize.toNat < data.length := by
      rw [hagreed]
      exact Nat.not_lt.2 hsize
    have hchannels : b.channels.receive c w = (.ok (Response.packet data), d, w') := by
      rw [hb]
      exact hreceive
    show RemoteReader.next b.channels r w = _
    unfold RemoteReader.next
    simp only [hdone, hchannel, hchannels, Response.packet, ne_eq, not_true_eq_false, if_false,
      if_neg hfits]

omit [Journaled W] [Wired W] in
/-- A packet that does not fit into a frame cannot be written. -/
theorem encode_of_lt {data : Bytes} (h : bodyLimit < fixedSize + data.length) :
    Response.encode .ok [] data = .error (.misuse (.frameTooLong (fixedSize + data.length))) := by
  have hmessage : ¬Response.messageLimit < 0 := Nat.not_lt_zero _
  simp only [Response.encode, List.length_nil, if_neg hmessage, Nat.add_zero, if_pos h]

/-- **What of an agreed packet size fits the wire.**  A client opened a remote block with the packet
size of its settings, and its readers keep to that size.  A packet within the size gets through if
it fits into a frame, and cannot be written otherwise.  So all packets within the size get through
if and only if the largest of them fits. -/
theorem carried_iff {m : Mount} {s : Settings} {network : Network} {address : Address}
    {request : Wire.Request} {b : RemoteBlock W Connection}
    (h : ofSettings m s network address request = .ok b) :
    m.packetSize s .remotePacketSize = .ok b.request.packetSize ∧
      (∀ offset length w r w', b.source.create offset length w = (.ok r, w') →
        r.request.packetSize = b.request.packetSize) ∧
      (∀ r w, (b.source.next r w).2.1.request = r.request) ∧
      (∀ data : Bytes, data ≠ [] → data.length ≤ b.request.packetSize.toNat →
        fixedSize + data.length ≤ bodyLimit → b.Carried data) ∧
      (∀ data : Bytes, bodyLimit < fixedSize + data.length →
        Response.encode .ok [] data =
          .error (.misuse (.frameTooLong (fixedSize + data.length)))) ∧
      ((∀ data : Bytes, data ≠ [] → data.length ≤ b.request.packetSize.toNat →
          b.Carried data) ↔ fixedSize + b.request.packetSize.toNat ≤ bodyLimit) := by
  obtain ⟨hagreed, hpos, hchannels⟩ := ofSettings_eq_ok h
  refine ⟨hagreed, fun offset length w r w' hr => packetSize_create hr,
    fun r w => request_next b.channels r w, fun data => carried_of_le hchannels,
    fun data => encode_of_lt, fun hall => ?_, fun hfits data hne hsize => ?_⟩
  · -- the largest packet decides
    let largest : Bytes := List.replicate b.request.packetSize.toNat 0
    have hlength : largest.length = b.request.packetSize.toNat := List.length_replicate
    have hne : largest ≠ [] := by
      rw [← List.length_pos_iff, hlength]
      exact hpos
    have hcarried : b.Carried largest := hall largest hne (Nat.le_of_eq hlength)
    refine Nat.le_of_not_lt fun hlt => ?_
    have hrefused : Response.encode .ok [] largest = _ := encode_of_lt (by rwa [hlength])
    simp [hcarried.written] at hrefused
  · exact carried_of_le hchannels hne hsize (by omega)

/-! ## A size that does not fit -/

/-- Settings with packets of 16 megabytes for remote blocks; no frame has a longer body. -/
def roomy : Settings := Settings.initial.set .remotePacketSize (text "16MB")

/-- A block that is opened with these settings. -/
def roomyBlock : RemoteBlock Site Connection where
  address := {}
  request := { packetSize := 16777216 }
  channels := Connection.channel
  dial := Dialler.network (Loopback.network {}) 30000

theorem ofSettings_roomy :
    ofSettings {} roomy (Loopback.network {}) {} {} = .ok roomyBlock := by
  rfl

/-- The settings are taken, and a packet that is three bytes short of the agreed size cannot be
written. -/
theorem not_carried_roomy :
    ofSettings {} roomy (Loopback.network {}) {} {} = .ok roomyBlock ∧
      ∃ data : Bytes, data = List.replicate 16777213 7 ∧ data ≠ [] ∧
        data.length ≤ roomyBlock.request.packetSize.toNat ∧
        Response.encode .ok [] data = .error (.misuse (.frameTooLong 16777217)) := by
  have hlength : (List.replicate 16777213 (7 : UInt8)).length = 16777213 :=
    List.length_replicate
  refine ⟨ofSettings_roomy, _, rfl, ?_, ?_, ?_⟩
  · rw [← List.length_pos_iff, hlength]
    decide
  · rw [hlength]
    decide
  · rw [encode_of_lt (by rw [hlength]; decide), hlength]
    rfl

/-- With the same settings a packet of one byte less gets through. -/
theorem carried_iff_roomy :
    ofSettings {} roomy (Loopback.network {}) {} {} = .ok roomyBlock ∧
      roomyBlock.Carried (List.replicate 16777212 7) := by
  have hlength : (List.replicate 16777212 (7 : UInt8)).length = 16777212 :=
    List.length_replicate
  obtain ⟨-, -, -, hcarried, -⟩ := carried_iff ofSettings_roomy
  refine ⟨ofSettings_roomy, hcarried _ ?_ ?_ ?_⟩
  · rw [← List.length_pos_iff, hlength]
    decide
  · rw [hlength]
    decide
  · rw [hlength]
    decide

end RemoteBlock
end BlockAccess
