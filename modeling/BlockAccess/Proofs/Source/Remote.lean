import BlockAccess.Channel.Network
import BlockAccess.Proofs.Channel.Framing
import BlockAccess.Proofs.Source.Conforming
import BlockAccess.Source.Remote

/-!
# Remote blocks are delivered

A worker may cut a range into packets as it likes, as long as none of them is empty or larger than
was asked for, and behind the last one there is the end mark.  If the request is taken back it may
stop between two packets and confirm that, or it may have sent everything before it was told.
`Connection.Answers` says so about whatever answers on a connection.  It says what the bytes are and
not how they arrive, and the worker of the library is an instance (`Worker.answers`).

Over such connections a remote block is delivered (`RemoteBlock.conforming`).  What a reader owes is
the packets that its connection still holds, in front of the end mark.  Closing a reader early ends
well too, because every packet is passed over up to the mark or the confirmation
(`RemoteReader.drain_deliveries`).
-/

namespace BlockAccess

open Wire (Request Response Status)

/-! ## Packets on the wire -/

/-- The cuts of some bytes into packets that are not empty and not larger than `most`. -/
structure Cut (most : Nat) (b : Bytes) (ps : List Bytes) : Prop where
  flatten : ps.flatten = b
  sizes : ∀ p ∈ ps, p ≠ [] ∧ p.length ≤ most

/-- The response that carries a packet. -/
def Wire.Response.packet (p : Bytes) : Response := { data := some p }

/-- The frames in which packets are delivered. -/
def deliveries (ps : List Bytes) : Bytes := ps.flatMap fun p => (Response.packet p).frame

namespace Wire.Response

theorem sendable_of_le {r : Response} (hmessage : r.message.length ≤ messageLimit)
    (hframe : fixedSize + r.message.length + (r.data.getD []).length ≤ Frame.bodyLimit) :
    r.Sendable :=
  ⟨_, encode_of_le hmessage hframe⟩

theorem sendable_packet {p : Bytes} (h : fixedSize + p.length ≤ Frame.bodyLimit) :
    (packet p).Sendable :=
  sendable_of_le (Nat.zero_le _) h

theorem sendable_endMark : endMark.Sendable := ⟨_, rfl⟩

theorem received_packet {p : Bytes} (h : p ≠ []) : (packet p).received = packet p := by
  cases p with
  | nil => exact absurd rfl h
  | cons c p => rfl

end Wire.Response

/-! ## Whatever answers -/

namespace Connection

variable {W : Type} [Journaled W] [Wired W]

/-- Framed channels on which something answers: for every request that goes out on a connection
`react` says what is to be read there from then on. -/
def answered (react : Request → Connection → W → List Bytes) : Channel W Connection where
  send r c w :=
    match c.send r w with
    | (.error f, d, w') => (.error f, d, w')
    | (.ok (), d, w') =>
      (.ok (), { d with socket := { d.socket with chunks := react r c w } }, w')
  receive := receive
  close := close
  pending c := c.socket.arrived
  pending_receive := arrived_receive

omit [Journaled W] [Wired W] in
/-- What answers on a connection of the library: the worker at the other end, if there is one. -/
def replying (r : Request) (c : Connection) (_ : W) : List Bytes :=
  match c.peer with
  | none => c.socket.chunks
  | some worker => c.socket.chunks ++ [worker.reply r]

/-- The channels of the library are answered by their workers. -/
theorem answered_replying : answered replying = (channel : Channel W Connection) := by
  have hsend (r : Request) (c : Connection) (w : W) :
      (answered replying).send r c w = c.send r w := by
    unfold answered send replying
    by_cases hopen : c.isOpen = true
    · by_cases hreads : c.socket.peerReads = true
      · simp only [hopen, hreads, Bool.not_true, Bool.false_eq_true, if_false]
        cases c.peer <;> rfl
      · simp only [hopen, hreads]
        rfl
    · simp only [hopen]
      rfl
  unfold answered channel
  congr 1
  funext r c w
  exact hsend r c w

/-- A connection that is open at both ends, with a certain worker at the other one. -/
structure Live (peer : Option Worker) (c : Connection) : Prop where
  isOpen : c.isOpen = true
  peerReads : c.socket.peerReads = true
  peer_eq : c.peer = peer

/-- Something answers requests for the block `block` as long as they ask for packets of this size.
A request is answered by the packets of its range and the end mark.  When it is taken back, either
the packets that are under way end early with a confirmation, or nothing is held back; more may
follow. -/
structure Answers (react : Request → Connection → W → List Bytes) (peer : Option Worker) (S : Bytes)
    (block packetSize : UInt64) : Prop where
  serves : ∀ {r c w}, c.peer = peer → r.blockId = block → r.packetSize = packetSize →
    r.cancel = false → c.unread = [] → ∃ ps,
      Cut packetSize.toNat (range S r.offset r.length) ps ∧
      (react r c w).flatten = deliveries ps ++ Response.endMark.frame
  cancels : ∀ {r c w ps}, c.peer = peer → r.blockId = block → r.packetSize = packetSize →
    r.cancel = true → c.unread = deliveries ps ++ Response.endMark.frame → ∃ ps' last rest,
      ps' <+: ps ∧ last.Sendable ∧ (last = Response.endMark ∨ last.status = .cancelled) ∧
      (react r c w).flatten = deliveries ps' ++ (last.frame ++ rest)

theorem Live.later {peer : Option Worker} {c d : Connection} (h : c.Live peer)
    (hlater : Later c d) : d.Live peer where
  isOpen := hlater.isOpen.trans h.isOpen
  peerReads := hlater.peerReads.trans h.peerReads
  peer_eq := hlater.peer.trans h.peer_eq

/-- On such a connection a request goes out, and what answers is heard. -/
theorem Live.send {peer : Option Worker} {c : Connection} (h : c.Live peer)
    (react : Request → Connection → W → List Bytes) (r : Request) (w : W) :
    ∃ d w', (answered react).send r c w = (.ok (), d, w') ∧ d.Live peer ∧
      d.unread = (react r c w).flatten := by
  have hsend : ∃ d w', c.send r w = (.ok (), d, w') ∧ d.Live peer := by
    unfold Connection.send
    rw [if_neg (by simp [h.isOpen]), if_neg (by simp [h.peerReads])]
    refine ⟨_, _, rfl, ?_⟩
    split
    · exact h
    · exact ⟨h.isOpen, h.peerReads, h.peer_eq⟩
  obtain ⟨d, w', hd, hlive⟩ := hsend
  refine ⟨{ d with socket := { d.socket with chunks := react r c w } }, w', ?_,
    ⟨hlive.isOpen, hlive.peerReads, hlive.peer_eq⟩, rfl⟩
  unfold answered
  dsimp only
  rw [hd]

end Connection

/-! ## Readers -/

namespace RemoteReader

variable {W : Type} [Journaled W] [Wired W] {react : Request → Connection → W → List Bytes}
  {peer : Option Worker} {S : Bytes} {block packetSize : UInt64}

/-- A reader with a connection, and the bytes that it still has to hand out: those of the packets in
front of the end mark, until the end mark has come. -/
structure Owing (peer : Option Worker) (block packetSize : UInt64)
    (r : RemoteReader Connection) (c : Connection) (b : Bytes) : Prop where
  channel : r.channel = some c
  live : c.Live peer
  block_eq : r.request.blockId = block
  packetSize_eq : r.request.packetSize = packetSize
  rest : r.done = true ∧ b = [] ∨ r.done = false ∧ ∃ ps, Cut packetSize.toNat b ps ∧
    c.unread = deliveries ps ++ Response.endMark.frame

variable {r : RemoteReader Connection} {c : Connection} {b : Bytes}

/-- The next packet is the front of what is owed, and the end mark comes when nothing is. -/
theorem Owing.next (h : r.Owing peer block packetSize c b)
    (hsize : Response.fixedSize + packetSize.toNat ≤ Wire.Frame.bodyLimit)
    (react : Request → Connection → W → List Bytes) (w : W) :
    (∃ r' c' w', RemoteReader.next (Connection.answered react) r w = (.ok none, r', w') ∧
      b = [] ∧ r'.Owing peer block packetSize c' []) ∨
    ∃ p r' c' w' rest,
      RemoteReader.next (Connection.answered react) r w = (.ok (some p), r', w') ∧
      b = p.unread ++ rest ∧ p.unread ≠ [] ∧ r'.Owing peer block packetSize c' rest := by
  have hchannel := h.channel
  rcases h.rest with ⟨hdone, rfl⟩ | ⟨hdone, ps, hcut, hbytes⟩
  · refine .inl ⟨r, c, w, ?_, rfl, h⟩
    unfold RemoteReader.next
    simp only [hdone]
  have hreceive : (Connection.answered react).receive c w = c.receive w := rfl
  cases ps with
  | nil =>
    rw [← List.append_nil Response.endMark.frame] at hbytes
    obtain ⟨d, w', hr, -, hlater⟩ := Connection.receive_frame h.live.isOpen
      Response.sendable_endMark hbytes w
    obtain rfl : b = [] := hcut.flatten.symm
    refine .inl ⟨{ r with channel := some d, done := true }, d, w', ?_, rfl, ⟨rfl,
      h.live.later hlater, h.block_eq, h.packetSize_eq, .inl ⟨rfl, rfl⟩⟩⟩
    unfold RemoteReader.next
    simp only [hdone, hchannel, hreceive, hr]
    rfl
  | cons p ps =>
    obtain ⟨⟨hne, hle⟩, hsizes⟩ := List.forall_mem_cons.1 hcut.sizes
    have hsendable : (Response.packet p).Sendable := Response.sendable_packet (by omega)
    rw [deliveries, List.flatMap_cons, List.append_assoc] at hbytes
    obtain ⟨d, w', hr, hrest, hlater⟩ :=
      Connection.receive_frame h.live.isOpen hsendable hbytes w
    rw [Response.received_packet hne] at hr
    have hflatten : b = p ++ ps.flatten := hcut.flatten.symm
    refine .inr ⟨Packet.ofBytes p,
      { r with channel := some d, position := r.position + .ofNat p.length }, d, w', ps.flatten, ?_,
      hflatten, hne, ⟨rfl, h.live.later hlater, h.block_eq, h.packetSize_eq,
        .inr ⟨hdone, ps, ⟨rfl, hsizes⟩, hrest⟩⟩⟩
    have hfits : ¬r.request.packetSize.toNat < p.length := by
      rw [h.packetSize_eq]
      exact Nat.not_lt.2 hle
    unfold RemoteReader.next
    simp only [hdone, hchannel, hreceive, hr, Response.packet, ne_eq, not_true_eq_false, if_false,
      if_neg hfits]

/-! ### Closing early -/

omit [Wired W] in
theorem drain_of_receive {C : Type} {channels : Channel W C} {c d : C} {w w' : W} {r : Response}
    (h : channels.receive c w = (.ok r, d, w')) : drain channels block c w =
      if r.isPacket then drain channels block d w'
      else if r.status = Status.cancelled || r.status = Status.ok then (.ok (), d, w')
      else (.ok (), d, note (.cancelFailed block r.status r.message) w') := by
  rw [drain]
  split
  · next h' =>
    rw [h] at h'
    simp at h'
  · next h' =>
    rw [h] at h'
    simp only [Prod.mk.injEq, Except.ok.injEq] at h'
    obtain ⟨rfl, rfl, rfl⟩ := h'
    rfl

/-- Passing over what is under way ends well at the end mark or the confirmation. -/
theorem drain_deliveries {ps : List Bytes}
    (hps : ∀ p ∈ ps, p ≠ [] ∧ (Response.packet p).Sendable) {last : Response}
    (hlast : last.Sendable) (hend : last = Response.endMark ∨ last.status = .cancelled)
    {rest : Bytes} (hopen : c.isOpen = true)
    (hbytes : c.unread = deliveries ps ++ (last.frame ++ rest))
    (react : Request → Connection → W → List Bytes) (block : UInt64) (w : W) :
    ∃ d w', drain (Connection.answered react) block c w = (.ok (), d, w') := by
  induction ps generalizing c w with
  | nil =>
    obtain ⟨d, w', hr, -, -⟩ := Connection.receive_frame hopen hlast hbytes w
    refine ⟨d, w', ?_⟩
    rw [drain_of_receive hr]
    rcases hend with rfl | hcancelled
    · rfl
    · have hstatus : last.received.status = .cancelled := hcancelled
      have hpacket : last.received.isPacket = false := by
        simp [Response.isPacket, hstatus, Status.cancelled, Status.ok]
      simp [hpacket, hstatus]
  | cons p ps ih =>
    obtain ⟨⟨hne, hsendable⟩, hps⟩ := List.forall_mem_cons.1 hps
    rw [deliveries, List.flatMap_cons, List.append_assoc] at hbytes
    obtain ⟨d, w', hr, hrest, hlater⟩ := Connection.receive_frame hopen hsendable hbytes w
    rw [Response.received_packet hne] at hr
    obtain ⟨e, w'', hdrain⟩ := ih hps (hlater.isOpen.trans hopen) hrest w'
    refine ⟨e, w'', ?_⟩
    rw [drain_of_receive hr, if_pos (by rfl), hdrain]

/-- Closing a reader ends well, however much it still owes. -/
theorem Owing.close (hreact : Connection.Answers react peer S block packetSize)
    (hsize : Response.fixedSize + packetSize.toNat ≤ Wire.Frame.bodyLimit)
    (h : r.Owing peer block packetSize c b) (w : W) :
    ∃ r' w', RemoteReader.close (Connection.answered react) r w = (.ok (), r', w') := by
  have hchannel := h.channel
  unfold RemoteReader.close
  rw [hchannel]
  dsimp only
  rcases h.rest with ⟨hdone, -⟩ | ⟨hdone, ps, hcut, hbytes⟩
  · rw [if_pos hdone]
    exact ⟨_, w, rfl⟩
  · obtain ⟨ps', last, rest, hfront, hlast, hend, hreply⟩ :=
      hreact.cancels (w := w) h.live.peer_eq (r := { r.request with cancel := true }) h.block_eq
        h.packetSize_eq rfl hbytes
    obtain ⟨d, w₁, hsend, hlive, hunread⟩ :=
      h.live.send react { r.request with cancel := true } w
    have hps' : ∀ p ∈ ps', p ≠ [] ∧ (Response.packet p).Sendable := fun p hp => by
      obtain ⟨hne, hle⟩ := hcut.sizes p (hfront.subset hp)
      exact ⟨hne, Response.sendable_packet (by omega)⟩
    obtain ⟨e, w₂, hdrain⟩ := drain_deliveries hps' hlast hend hlive.isOpen
      (hunread.trans hreply) react r.request.blockId w₁
    have hcancel : cancel (Connection.answered react) r.request c w = (.ok (), e, w₂) := by
      unfold cancel
      rw [hsend]
      exact hdrain
    rw [if_neg (by simp [hdone]), hcancel]
    exact ⟨_, w₂, rfl⟩

end RemoteReader

/-! ## The source -/

namespace RemoteBlock

variable {W : Type} [Journaled W] [Wired W] {react : Request → Connection → W → List Bytes}
  {peer : Option Worker} {S : Bytes} {address : Address} {request : Request}
  {dial : Dialler W Connection}

/-- The connections that are made are live, and nothing is to be read on them. -/
def Dials (dial : Dialler W Connection) (address : Address) (peer : Option Worker) : Prop :=
  ∀ w, ∃ c w', dial address w = (.ok (some c), w') ∧ c.Live peer ∧ c.unread = []

theorem create_owing (hdial : Dials dial address peer)
    (hreact : Connection.Answers react peer S request.blockId request.packetSize)
    (offset length : UInt64) (w : W) : ∃ r c w',
      create { address, request, channels := Connection.answered react, dial } offset length w =
        (.ok r, w') ∧
      r.Owing peer request.blockId request.packetSize c (range S offset length) := by
  obtain ⟨c, w₁, hdialled, hlive, hnothing⟩ := hdial w
  let r : Request := { request with offset, length, cancel := false }
  obtain ⟨ps, hcut, hreply⟩ := hreact.serves (r := r) (w := w₁) hlive.peer_eq rfl rfl rfl hnothing
  obtain ⟨d, w', hsend, hlive', hunread⟩ := hlive.send react r w₁
  refine ⟨{ channel := some d, request := r, position := offset }, d, w', ?_, rfl, hlive', rfl, rfl,
    .inr ⟨rfl, ps, hcut, hunread.trans hreply⟩⟩
  unfold create
  dsimp only
  rw [hdialled]
  show RemoteReader.attach (Connection.answered react) (some c) r w₁ = _
  unfold RemoteReader.attach
  dsimp only
  rw [hsend]

/-- **A remote block is delivered** over connections on which requests are answered, if packets of
the size that is asked for fit into frames. -/
def conforming (hdial : Dials dial address peer)
    (hreact : Connection.Answers react peer S request.blockId request.packetSize)
    (hsize : Response.fixedSize + request.packetSize.toNat ≤ Wire.Frame.bodyLimit) :
    (RemoteBlock.mk address request (Connection.answered react) dial).source.Conforming S where
  Fair _ := True
  Owes r _ b _ := ∃ c, r.Owing peer request.blockId request.packetSize c b
  fair_note _ _ := trivial
  fair_release _ _ := trivial
  owes_note _ h := h
  owes_release _ h := h
  create {w} offset length _ := by
    obtain ⟨r, c, w', hcreate, ho⟩ := create_owing hdial hreact offset length w
    exact ⟨r, w', hcreate, trivial, c, ho⟩
  next {r w b e} _ h := by
    obtain ⟨c, h⟩ := h
    rcases h.next hsize react w with ⟨r', c', w', hn, hb, ho⟩ |
      ⟨p, r', c', w', rest, hn, hb, hne, ho⟩
    · exact .inl ⟨r', w', hn, trivial, hb, c', ho⟩
    · exact .inr ⟨p, r', w', rest, hn, trivial, hb, .inl ⟨hne, c', ho⟩⟩
  close {r w b e} _ h := by
    obtain ⟨c, h⟩ := h
    obtain ⟨r', w', hclose⟩ := h.close hreact hsize w
    exact ⟨r', w', hclose, trivial⟩

end RemoteBlock

/-! ## The worker of the library -/

@[simp] theorem pieces_nil (size : Nat) : pieces size [] = [] := by rw [pieces]

/-- The first piece is a full one, or all there is. -/
theorem pieces_of_ne_nil {size : Nat} {b : Bytes} (hsize : 0 < size) (hb : b ≠ []) :
    pieces size b = b.take size :: pieces size (b.drop size) := by
  obtain ⟨x, b, rfl⟩ := List.exists_cons_of_ne_nil hb
  obtain ⟨n, rfl⟩ := Nat.exists_eq_succ_of_ne_zero (Nat.ne_of_gt hsize)
  rw [pieces, Nat.max_eq_left hsize]
  rfl

/-- What holds of no bytes, and of bytes if it holds of what is behind their first piece, holds of
all bytes. -/
theorem pieces_induction {size : Nat} (hsize : 0 < size) {motive : Bytes → Prop}
    (nil : motive []) (piece : ∀ b, b ≠ [] → motive (b.drop size) → motive b) (b : Bytes) :
    motive b := by
  by_cases hb : b = []
  · rw [hb]
    exact nil
  · exact piece b hb (pieces_induction hsize nil piece (b.drop size))
termination_by b.length
decreasing_by
  rw [List.length_drop]
  have := List.length_pos_iff.2 hb
  omega

theorem cut_pieces {size : Nat} (hsize : 0 < size) (b : Bytes) : Cut size b (pieces size b) := by
  induction b using pieces_induction hsize with
  | nil =>
    rw [pieces_nil]
    exact ⟨rfl, fun p hp => absurd hp List.not_mem_nil⟩
  | piece b hb ih =>
    rw [pieces_of_ne_nil hsize hb]
    constructor
    · rw [List.flatten_cons, ih.flatten, List.take_append_drop]
    · rw [List.forall_mem_cons]
      refine ⟨⟨fun hnil => ?_, List.length_take_le ..⟩, ih.sizes⟩
      exact (List.take_eq_nil_iff.1 hnil).elim (Nat.ne_of_gt hsize) hb

variable {W : Type} [Journaled W] [Wired W]

omit [Journaled W] [Wired W] in
/-- A worker answers requests for its block. -/
theorem Worker.answers (worker : Worker) {packetSize : UInt64}
    (hpos : 0 < (worker.packetSize.getD packetSize).toNat)
    (hle : (worker.packetSize.getD packetSize).toNat ≤ packetSize.toNat) :
    Connection.Answers (W := W) Connection.replying (some worker) worker.block worker.blockId
      packetSize where
  serves {r c w} hpeer hblock hsize hcancel hnothing := by
    have hcut := cut_pieces hpos (range worker.block r.offset r.length)
    refine ⟨_, ⟨hcut.flatten, fun p hp => ?_⟩, ?_⟩
    · exact ⟨(hcut.sizes p hp).1, Nat.le_trans (hcut.sizes p hp).2 hle⟩
    · rw [Connection.replying, hpeer]
      dsimp only
      rw [List.flatten_append]
      show c.unread ++ _ = _
      rw [hnothing]
      simp [reply, answer, hcancel, hblock, serve, hsize, deliveries, Response.packet,
        Response.frame, List.flatMap_map]
  cancels {r c w ps} hpeer hblock hsize hcancel hbytes := by
    refine ⟨ps, Response.endMark, worker.reply r, List.prefix_rfl, Response.sendable_endMark,
      .inl rfl, ?_⟩
    rw [Connection.replying, hpeer]
    dsimp only
    rw [List.flatten_append]
    show c.unread ++ _ = _
    rw [hbytes, List.flatten_singleton, List.append_assoc]

/-- On a network where a worker answers at every address, connections are made. -/
theorem Dialler.dials_network {network : Network} {worker : Worker} {address : Address}
    {patience : Int32} (h : network.dial address patience = .answered worker) :
    RemoteBlock.Dials (W := W) (Dialler.network network patience) address (some worker) := by
  intro w
  unfold Dialler.network
  rw [h]
  exact ⟨_, _, rfl, ⟨rfl, rfl, rfl⟩, rfl⟩

end BlockAccess
