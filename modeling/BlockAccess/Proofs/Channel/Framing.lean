import BlockAccess.Proofs.Channel.Receiving

/-!
# Responses come out as they went in

A worker writes the frames of its responses one behind the other, and the bytes arrive in chunks
that have nothing to do with frames.  Receiving gives the responses back one by one
(`receipts_of_frames`), and where the last frame is cut off it fails, however often it is tried.

The proof is about a single call.  A header announces the length of its body, so a frame at the
front of what arrives is found whatever follows it (`Received.of_frame`), and a frame that is cut
off is found to be cut off wherever the cut is (`Received.of_cut`).  Chunks do not occur in either:
that is what `Connection.unread` was made for.
-/

namespace BlockAccess

open Wire (Response)
open Wire.Frame (headerSize)
open Wire.Frame.Header (decode?)

namespace Wire.Response

/-- The frame of a response, if it has one. -/
def frame (r : Response) : Bytes := r.toFrame.toOption.getD []

/-- A response that can be written. -/
def Sendable (r : Response) : Prop := ∃ b, r.toFrame = .ok b

/-- A response as it is read: no bytes of data are no data. -/
def received (r : Response) : Response := { r with data := dataOf (r.data.getD []) }

/-- The length of the body of a response. -/
def bodyLength (r : Response) : Nat := fixedSize + r.message.length + r.dataSize

variable {r : Response}

theorem Sendable.toFrame_eq (h : r.Sendable) : r.toFrame = .ok r.frame := by
  obtain ⟨b, hb⟩ := h
  rw [frame, hb]
  rfl

theorem Sendable.header (h : r.Sendable) :
    decode? (r.frame.take headerSize) = some { length := r.bodyLength, kind := .response } :=
  (lossless h.toFrame_eq).1

theorem Sendable.length_frame (h : r.Sendable) : r.frame.length = headerSize + r.bodyLength :=
  (lossless h.toFrame_eq).2.1

theorem Sendable.decode_body (h : r.Sendable) :
    decode (r.frame.drop headerSize) = .ok r.received :=
  (lossless h.toFrame_eq).2.2

end Wire.Response

/-! ## One call -/

namespace Received

variable {f : Failure} {r : Response} {x : Except Failure Response} {n : Nat}

/-- A frame at the front is read, whatever follows it. -/
theorem of_frame (hr : r.Sendable) {rest : Bytes} (h : Received f (r.frame ++ rest) x n) :
    x = .ok r.received ∧ n = r.frame.length := by
  have hlength := hr.length_frame
  have htake : (r.frame ++ rest).take headerSize = r.frame.take headerSize :=
    List.take_append_of_le_length (by omega)
  have hheader := hr.header
  rw [← htake] at hheader
  have hlong : headerSize + r.bodyLength ≤ (r.frame ++ rest).length := by
    rw [List.length_append]
    omega
  cases h with
  | cutHeader hcut => omega
  | refused _ hnone => simp [hheader] at hnone
  | unexpected _ hsome hkind =>
    obtain rfl := Option.some.inj (hheader.symm.trans hsome)
    simp at hkind
  | cutBody _ hsome _ hcut =>
    obtain rfl := Option.some.inj (hheader.symm.trans hsome)
    dsimp only at hcut
    omega
  | whole hsome _ _ =>
    obtain rfl := Option.some.inj (hheader.symm.trans hsome)
    have hbody : ((r.frame ++ rest).drop headerSize).take r.bodyLength =
        r.frame.drop headerSize := by
      rw [List.drop_append_of_le_length (by omega)]
      exact List.take_left' (by rw [List.length_drop, hlength, Nat.add_sub_cancel_left])
    exact ⟨hbody ▸ hr.decode_body, hlength.symm⟩

/-- A frame that is cut off is not read, wherever the cut is. -/
theorem of_cut (hr : r.Sendable) {p : Bytes} (hp : p <+: r.frame) (hcut : p ≠ r.frame)
    (h : Received f p x n) : x = .error f ∧ n = p.length := by
  have hlength := hr.length_frame
  have hlt : p.length < r.frame.length :=
    Nat.lt_of_le_of_ne hp.length_le fun heq => hcut (hp.eq_of_length heq)
  have hheader (hle : headerSize ≤ p.length) : decode? (p.take headerSize) =
      some { length := r.bodyLength, kind := .response } := by
    obtain ⟨q, hq⟩ := hp
    rw [← hr.header, ← hq, List.take_append_of_le_length hle]
  cases h with
  | cutHeader => exact ⟨rfl, rfl⟩
  | refused hle hnone => simp [hheader hle] at hnone
  | unexpected hle hsome hkind =>
    obtain rfl := Option.some.inj ((hheader hle).symm.trans hsome)
    simp at hkind
  | cutBody => exact ⟨rfl, rfl⟩
  | whole hsome _ hle =>
    obtain rfl := Option.some.inj ((hheader (by omega)).symm.trans hsome)
    dsimp only at hle
    omega

end Received

namespace Connection

variable {W : Type} [Journaled W] {r : Response} {c : Connection}

theorem receive_frame (hopen : c.isOpen = true) (hr : r.Sendable) {rest : Bytes}
    (hbytes : c.unread = r.frame ++ rest) (w : W) :
    ∃ d w', c.receive w = (.ok r.received, d, w') ∧ d.unread = rest ∧ Later c d := by
  obtain ⟨x, n, d, w', hreceive, hreceived, hrest, hlater⟩ := receive_cases hopen w
  rw [hbytes] at hreceived hrest
  obtain ⟨rfl, rfl⟩ := hreceived.of_frame hr
  exact ⟨d, w', hreceive, by rw [hrest, List.drop_left], hlater⟩

theorem receive_cut (hopen : c.isOpen = true) (hr : r.Sendable) (hbytes : c.unread <+: r.frame)
    (hcut : c.unread ≠ r.frame) (w : W) :
    ∃ d w', c.receive w = (.error c.shortage, d, w') ∧ d.unread = [] ∧ Later c d := by
  obtain ⟨x, n, d, w', hreceive, hreceived, hrest, hlater⟩ := receive_cases hopen w
  obtain ⟨rfl, rfl⟩ := hreceived.of_cut hr hbytes hcut
  exact ⟨d, w', hreceive, by rw [hrest, List.drop_length], hlater⟩

/-! ## Calls in a row -/

/-- The peer has closed its end in good order, and what it sent is there to be read. -/
structure Finished (c : Connection) : Prop where
  isOpen : c.isOpen = true
  reset : c.socket.reset = false

theorem Finished.later {d : Connection} (h : c.Finished) (hlater : Later c d) : d.Finished where
  isOpen := hlater.isOpen.trans h.isOpen
  reset := Bool.eq_false_iff.2 fun hreset => by simpa [h.reset] using hlater.reset hreset

theorem Finished.shortage_eq (h : c.Finished) : c.shortage = .transport .peerClosed := by
  simp [shortage, h.reset]

/-- Behind the last whole frame every call fails. -/
theorem receipts_of_cut (h : c.Finished) (hr : r.Sendable) (hbytes : c.unread <+: r.frame)
    (hcut : c.unread ≠ r.frame) (w : W) (k : Nat) :
    (c.receipts k w).map Receipt.result =
      List.replicate k (.error (.transport .peerClosed)) := by
  induction k generalizing c w with
  | zero => rfl
  | succ k ih =>
    obtain ⟨d, w', hreceive, hnothing, hlater⟩ := receive_cut h.isOpen hr hbytes hcut w
    have hframe : r.frame ≠ [] := by
      rw [← List.length_pos_iff, hr.length_frame]
      exact Nat.add_pos_left (by decide) _
    have hfails := ih (h.later hlater) (hnothing ▸ List.nil_prefix) (hnothing ▸ hframe.symm) w'
    rw [receipts_succ hreceive, List.map_cons, List.replicate_succ, hfails, h.shortage_eq]

/-- **Receiving gives what was sent, and nothing else.**  The frames of some responses arrive, and
then the front `p` of one more frame, possibly of no length, and the end of the stream.  In whatever
chunks they come, the calls give these responses in order, and every call after them fails. -/
theorem receipts_of_frames {rs : List Response} (hrs : ∀ r ∈ rs, r.Sendable) {last : Response}
    (hlast : last.Sendable) {p : Bytes} (hp : p <+: last.frame) (hcut : p ≠ last.frame)
    (h : c.Finished) (hbytes : c.socket.chunks.flatten = rs.flatMap Response.frame ++ p) (w : W)
    (k : Nat) :
    (c.receipts (rs.length + k) w).map Receipt.result =
      rs.map (fun r => .ok r.received) ++ List.replicate k (.error (.transport .peerClosed)) := by
  induction rs generalizing c w with
  | nil =>
    have hunread : c.unread = p := hbytes
    rw [List.length_nil, Nat.zero_add]
    exact receipts_of_cut h hlast (hunread ▸ hp) (hunread ▸ hcut) w k
  | cons r rs ih =>
    rw [List.forall_mem_cons] at hrs
    rw [List.flatMap_cons, List.append_assoc] at hbytes
    obtain ⟨d, w', hreceive, hrest, hlater⟩ := receive_frame h.isOpen hrs.1 hbytes w
    have htail := ih hrs.2 (h.later hlater) hrest w'
    rw [List.length_cons, Nat.add_right_comm, receipts_succ hreceive, List.map_cons, htail]
    rfl

/-- A packet and a refusal, and the front of an end mark.  The chunks end within headers, behind a
header, and within a message. -/
def scattered : Connection where
  number := 0
  socket :=
    { chunks := [[0, 0], [0, 7, 2], [0, 0, 0, 0, 7, 8, 9, 0], [0, 0, 6, 2, 0, 1, 0, 2, 110],
        [111, 0, 0], [0, 4, 2, 0]] }

theorem receipts_of_frames_scattered :
    scattered.Finished ∧
      (scattered.receipts 4 ({} : Journal)).map Receipt.result =
        [.ok { data := some [7, 8, 9] }, .ok { status := .notFound, message := [110, 111] },
          .error (.transport .peerClosed), .error (.transport .peerClosed)] := by
  have hfinished : scattered.Finished := ⟨rfl, rfl⟩
  have hpacket : ({ data := some [7, 8, 9] } : Response).Sendable := ⟨_, rfl⟩
  have hrefusal : ({ status := .notFound, message := [110, 111] } : Response).Sendable := ⟨_, rfl⟩
  have hmark : Response.endMark.Sendable := ⟨_, rfl⟩
  have hfront : [0, 0, 0, 4, 2, 0] <+: Response.endMark.frame := by decide
  have hcut : [0, 0, 0, 4, 2, 0] ≠ Response.endMark.frame := by decide
  have hbytes : scattered.socket.chunks.flatten =
      [{ data := some [7, 8, 9] }, { status := .notFound, message := [110, 111] }].flatMap
        Response.frame ++ [0, 0, 0, 4, 2, 0] := by decide
  have hsendable := List.forall_mem_cons.2 ⟨hpacket, List.forall_mem_singleton.2 hrefusal⟩
  have hresults :=
    receipts_of_frames hsendable hmark hfront hcut hfinished hbytes ({} : Journal) 2
  exact ⟨hfinished, hresults⟩

end Connection

end BlockAccess
