import BlockAccess.Wire.Request
import BlockAccess.Wire.Response

/-!
# Writing and reading messages

What is written is read back, and what is read was written so: the two directions are the two halves
of `codec_exact`.  Requests and responses differ in what stands in the way of a perfect match.

A body of a request has a fixed size, so every body of 33 bytes is read, but six of its bits mean
nothing.  They are lost: writing the request again clears them (`Request.body_of_decode`).

A body of a response varies in two places.  Its message has its length in front of it, and its data
goes to the end, so a body is read exactly if the announced message is there, and nothing of it is
lost (`Response.body_of_decode`).  On the way out there are two limits, the two bytes for the length
of a message and the size of a frame; the first holds for everything that was read, the second does
not.
-/

namespace BlockAccess.Wire

/-! ## Words of a body -/

namespace Word

theorem decode_pair (x y : UInt8) : decode [x, y] = 256 * x.toNat + y.toNat := by
  simp [decode]

/-- The two bytes behind the first two of a body are read with the first of them in front. -/
theorem decode_take_two (b : Bytes) (h : 4 ≤ b.length) :
    decode ((b.drop 2).take 2) = 256 * (b.getD 2 0).toNat + (b.getD 3 0).toNat := by
  match b, h with
  | _ :: _ :: x :: y :: _, _ => exact decode_pair x y

theorem decode_lt_of_length {b : Bytes} {width : Nat} (h : b.length = width) :
    decode b < span width :=
  h ▸ decode_lt b

/-- So many bytes are written as they were read. -/
theorem encode_decode_of_length {b : Bytes} {width : Nat} (h : b.length = width) :
    encode width (decode b) = b :=
  h ▸ encode_decode b

/-- A word of 64 bits is read as it was written. -/
theorem ofNat_decode_encode (n : UInt64) : UInt64.ofNat (decode (encode 8 n.toNat)) = n := by
  have hfit : n.toNat < span 8 := n.toNat_lt
  rw [decode_encode hfit, UInt64.ofNat_toNat]

/-- Eight bytes are written as they were read. -/
theorem encode_ofNat_decode {b : Bytes} (h : b.length = 8) :
    encode 8 (UInt64.ofNat (decode b)).toNat = b := by
  have hfit : decode b < UInt64.size := decode_lt_of_length h
  rw [UInt64.toNat_ofNat_of_lt' hfit, encode_decode_of_length h]

end Word

/-! ## Frames -/

namespace Frame

/-- A header is all that is looked at. -/
theorem Header.decode?_take (b : Bytes) : decode? (b.take headerSize) = decode? b := by
  have htake : (b.take headerSize).take 4 = b.take 4 := by
    rw [List.take_take]
    rfl
  have hdrop : (b.take headerSize).drop 4 = (b.drop 4).take 1 := List.drop_take ..
  unfold decode?
  rw [htake, hdrop]
  cases b.drop 4 with
  | nil => rfl
  | cons c r => rfl

/-- Behind the header of a frame there is the body. -/
theorem drop_encode (kind : Kind) (body : Bytes) : (encode kind body).drop headerSize = body := by
  have hlength : (Word.encode 4 body.length ++ [kind.code]).length = headerSize := by
    simp [headerSize]
  rw [encode, ← List.singleton_append, ← List.append_assoc]
  exact List.drop_left' hlength

end Frame

/-! ## Requests -/

namespace Request

/-- A field is read where it was written. -/
theorem field_append {a : Bytes} {offset : Nat} (h : a.length = offset) (n : UInt64) (c : Bytes) :
    field (a ++ (Word.encode 8 n.toNat ++ c)) offset = n := by
  have hdrop : (a ++ (Word.encode 8 n.toNat ++ c)).drop offset = Word.encode 8 n.toNat ++ c :=
    List.drop_left' h
  have htake : (Word.encode 8 n.toNat ++ c).take 8 = Word.encode 8 n.toNat :=
    List.take_left' (Word.length_encode ..)
  rw [field, hdrop, htake, Word.ofNat_decode_encode]

theorem drop_body (r : Request) : r.body.drop 32 = [r.marks] :=
  List.drop_left' (by simp)

theorem decode_marks (r : Request) :
    (r.marks &&& 1 != 0) = r.cancel ∧ (r.marks &&& 2 != 0) = r.promote := by
  unfold marks
  cases r.cancel <;> cases r.promote <;> decide

/-- A request is read as it was written. -/
theorem decode_body (r : Request) : decode r.body = .ok r := by
  have hbody : r.body = Word.encode 8 r.blockId.toNat ++ (Word.encode 8 r.offset.toNat ++
      (Word.encode 8 r.length.toNat ++ (Word.encode 8 r.packetSize.toNat ++ [r.marks]))) := by
    simp only [body, List.append_assoc]
  have hblock : field r.body 0 = r.blockId := by
    rw [hbody]
    exact field_append (a := []) rfl ..
  have hoffset : field r.body 8 = r.offset := by
    rw [hbody]
    exact field_append (by simp) ..
  have hlength : field r.body 16 = r.length := by
    rw [hbody, ← List.append_assoc]
    exact field_append (by simp) ..
  have hsize : field r.body 24 = r.packetSize := by
    rw [hbody, ← List.append_assoc, ← List.append_assoc]
    exact field_append (by simp) ..
  obtain ⟨hcancel, hpromote⟩ := r.decode_marks
  rw [decode, if_pos r.length_body, drop_body]
  simp only [List.headD_cons, hblock, hoffset, hlength, hsize, hcancel, hpromote]

/-- A mark is set or not, whatever the others are. -/
theorem marks_masked (m : UInt8) :
    ((if m &&& 1 != 0 then 1 else 0) ||| (if m &&& 2 != 0 then 2 else 0) : UInt8) = m &&& 3 := by
  have h : ∀ v : BitVec 8, ((if UInt8.ofBitVec v &&& 1 != 0 then 1 else 0) |||
      (if UInt8.ofBitVec v &&& 2 != 0 then 2 else 0) : UInt8) = UInt8.ofBitVec v &&& 3 := by
    decide +kernel
  exact h m.toBitVec

theorem encode_field (b : Bytes) (offset : Nat) (h : offset + 8 ≤ b.length) :
    Word.encode 8 (field b offset).toNat = (b.drop offset).take 8 := by
  refine Word.encode_ofNat_decode ?_
  rw [List.length_take, List.length_drop]
  omega

/-- What is read is written as it was, but for the marks that mean nothing. -/
theorem body_of_decode {b : Bytes} {r : Request} (h : decode b = .ok r) :
    r.body = b.take 32 ++ (b.drop 32).map (· &&& 3) := by
  unfold decode at h
  split at h
  · next hsize =>
    have hlength : b.length = 33 := hsize
    obtain rfl := Except.ok.inj h
    -- the four fields are the four quarters of the first 32 bytes
    have hfields : b.take 32 = (b.drop 0).take 8 ++ (b.drop 8).take 8 ++ (b.drop 16).take 8
        ++ (b.drop 24).take 8 := by
      rw [List.drop_zero, ← List.take_add, ← List.take_add, ← List.take_add]
    obtain ⟨m, hm⟩ : ∃ m, b.drop 32 = [m] := by
      apply List.length_eq_one_iff.1
      rw [List.length_drop, hlength]
    simp only [body, marks, encode_field b 0 (by omega), encode_field b 8 (by omega),
      encode_field b 16 (by omega), encode_field b 24 (by omega), hm, List.headD_cons,
      marks_masked, hfields, List.map_cons, List.map_nil]
  · simp at h

theorem decode_isOk_iff (b : Bytes) : (∃ r, decode b = .ok r) ↔ b.length = bodySize := by
  unfold decode
  split <;> simp [*]

end Request

/-! ## Responses -/

namespace Response

theorem encode_isError_iff (status : Status) (message : Text) (data : Bytes) :
    (∃ f, encode status message data = .error f) ↔ messageLimit < message.length ∨
      Frame.bodyLimit < fixedSize + message.length + data.length := by
  simp only [encode]
  split
  · next h => simp [h]
  · next hmessage =>
    split
    · next h => simp [h]
    · next hframe => simp [hmessage, hframe]

theorem encode_eq_ok {status : Status} {message : Text} {data frame : Bytes}
    (h : encode status message data = .ok frame) :
    message.length ≤ messageLimit ∧
      fixedSize + message.length + data.length ≤ Frame.bodyLimit ∧
      frame = Frame.encode .response (body status message data) := by
  simp only [encode] at h
  split at h
  · simp at h
  next hmessage =>
  split at h
  · simp at h
  next hframe =>
  exact ⟨Nat.le_of_not_lt hmessage, Nat.le_of_not_lt hframe, (Except.ok.inj h).symm⟩

theorem encode_of_le {status : Status} {message : Text} {data : Bytes}
    (hmessage : message.length ≤ messageLimit)
    (hframe : fixedSize + message.length + data.length ≤ Frame.bodyLimit) :
    encode status message data = .ok (Frame.encode .response (body status message data)) := by
  simp only [encode, if_neg (Nat.not_lt.2 hmessage), if_neg (Nat.not_lt.2 hframe)]

theorem dataOf_eq_none_iff (b : Bytes) : dataOf b = none ↔ b = [] := by
  cases b <;> simp [dataOf]

/-- A response is read as it was written. -/
theorem decode_body {status : Status} {message : Text} (h : message.length ≤ messageLimit)
    (data : Bytes) :
    decode (body status message data) = .ok { status, message, data := dataOf data } := by
  have hlength := length_body status message data
  have hfit : message.length < Word.span 2 := Nat.lt_succ_of_le h
  have hstatus : (body status message data).take 2 = Word.encode 2 status.code.toNat := by
    simp only [body, List.append_assoc]
    exact List.take_left' (Word.length_encode ..)
  have hannounced : ((body status message data).drop 2).take 2 = Word.encode 2 message.length := by
    simp only [body, List.append_assoc]
    rw [List.drop_left' (Word.length_encode ..), List.take_left' (Word.length_encode ..)]
  have hrest : (body status message data).drop fixedSize = message ++ data := by
    simp only [body]
    rw [List.append_assoc]
    exact List.drop_left' (by simp [fixedSize])
  have hcode : status.code.toNat < Word.span 2 := status.code.toNat_lt
  simp only [decode, hstatus, hannounced, hrest, Word.decode_encode hfit, Word.decode_encode hcode,
    UInt16.ofNat_toNat, List.take_left, List.drop_left]
  rw [if_neg (by omega), if_neg (by omega)]

/-- A body is read if it is long enough for the message that it announces. -/
theorem decode_isOk_iff (b : Bytes) : (∃ r, decode b = .ok r) ↔
    fixedSize ≤ b.length ∧ fixedSize + Word.decode ((b.drop 2).take 2) ≤ b.length := by
  simp only [decode]
  split
  · next h => simp [Nat.not_le.2 h]
  · next hfixed =>
    split
    · next h => simp [Nat.not_le.2 h]
    · next hmessage => simp [Nat.not_lt.1 hfixed, Nat.not_lt.1 hmessage]

/-- What is read is written as it was. -/
theorem body_of_decode {b : Bytes} {r : Response} (h : decode b = .ok r) :
    body r.status r.message (r.data.getD []) = b ∧ r.message.length ≤ messageLimit := by
  simp only [decode] at h
  split at h
  · simp at h
  next hfixed =>
  split at h
  · simp at h
  next hmessage =>
  simp only [fixedSize] at hfixed hmessage
  obtain rfl := Except.ok.inj h
  have hstatus : (b.take 2).length = 2 := by
    rw [List.length_take]
    omega
  have hannounced : ((b.drop 2).take 2).length = 2 := by
    rw [List.length_take, List.length_drop]
    omega
  have hcode : Word.decode (b.take 2) < UInt16.size := Word.decode_lt_of_length hstatus
  have hlimit : Word.decode ((b.drop 2).take 2) < Word.span 2 := Word.decode_lt_of_length hannounced
  have hlength : ((b.drop fixedSize).take (Word.decode ((b.drop 2).take 2))).length =
      Word.decode ((b.drop 2).take 2) := by
    rw [List.length_take, List.length_drop, fixedSize]
    omega
  constructor
  · simp only [body, getD_dataOf, UInt16.toNat_ofNat_of_lt' hcode, hlength,
      Word.encode_decode_of_length hstatus, Word.encode_decode_of_length hannounced]
    rw [List.append_assoc, List.take_append_drop, ← List.take_add]
    exact List.take_append_drop ..
  · rw [hlength, messageLimit]
    exact Nat.le_of_lt_succ hlimit

end Response

/-! ## Both directions -/

theorem Request.lossless (r : Request) :
    r.encode.length = 38 ∧
      Frame.Header.decode? (r.encode.take 5) = some { length := 33, kind := .request } ∧
      decode (r.encode.drop 5) = .ok r := by
  refine ⟨r.length_encode, ?_, ?_⟩
  · have hfit : r.body.length ≤ Frame.bodyLimit := by
      rw [r.length_body]
      decide
    have hheader : Frame.Header.decode? (Frame.encode .request r.body) = some _ :=
      Frame.decode?_encode hfit
    rw [r.length_body] at hheader
    exact (Frame.Header.decode?_take _).trans hheader
  · show decode ((Frame.encode .request r.body).drop Frame.headerSize) = .ok r
    rw [Frame.drop_encode, decode_body]

theorem Response.lossless {status : Status} {message : Text} {data frame : Bytes}
    (h : encode status message data = .ok frame) :
    Frame.Header.decode? (frame.take 5) =
        some { length := 4 + message.length + data.length, kind := .response } ∧
      frame.length = 5 + (4 + message.length + data.length) ∧
      decode (frame.drop 5) = .ok { status, message, data := dataOf data } := by
  obtain ⟨hmessage, hframe, rfl⟩ := encode_eq_ok h
  have hlength : (body status message data).length = 4 + message.length + data.length :=
    length_body ..
  refine ⟨?_, ?_, ?_⟩
  · rw [← hlength]
    exact (Frame.Header.decode?_take _).trans (Frame.decode?_encode (hlength ▸ hframe))
  · rw [← hlength]
    exact Frame.length_encode ..
  · show decode ((Frame.encode .response _).drop Frame.headerSize) = _
    rw [Frame.drop_encode, decode_body hmessage]

/-- What was read can be written again if it stays within the limit of frames. -/
theorem Response.toFrame_of_decode {b : Bytes} {r : Response} (h : decode b = .ok r)
    (hb : b.length ≤ Frame.bodyLimit) : r.toFrame = .ok (Frame.encode .response b) := by
  obtain ⟨hbody, hmessage⟩ := body_of_decode h
  have hlength := length_body r.status r.message (r.data.getD [])
  rw [hbody] at hlength
  rw [toFrame, encode_of_le hmessage (hlength ▸ hb), hbody]

/-- **The wire format loses nothing, and takes nothing else.**  There are two statements for each
kind of message, one for all values and one for all bodies.

* A request has a frame of 38 bytes, from which it is read again.
* Of all bodies those of 33 bytes are read as requests, and written again they are the same but for
  the marks that mean nothing.
* A response is refused exactly if its message or its frame would be too long, and otherwise read
  again from its frame.
* Of all bodies those that hold the message they announce are read as responses, and within the
  limit of frames they are the same when they are written again. -/
theorem codec_exact :
    (∀ r : Request, r.encode.length = 38 ∧
      Frame.Header.decode? (r.encode.take 5) = some { length := 33, kind := .request } ∧
      Request.decode (r.encode.drop 5) = .ok r) ∧
    (∀ b : Bytes, ((∃ r, Request.decode b = .ok r) ↔ b.length = 33) ∧
      ∀ r, Request.decode b = .ok r →
        r.encode.drop 5 = b.take 32 ++ (b.drop 32).map (· &&& 3)) ∧
    (∀ (status : Status) (message : Text) (data : Bytes),
      ((∃ f, Response.encode status message data = .error f) ↔
        65535 < message.length ∨ Frame.bodyLimit < 4 + message.length + data.length) ∧
      ∀ frame, Response.encode status message data = .ok frame →
        Frame.Header.decode? (frame.take 5) =
            some { length := 4 + message.length + data.length, kind := .response } ∧
          frame.length = 5 + (4 + message.length + data.length) ∧
          ∃ r, Response.decode (frame.drop 5) = .ok r ∧ r.status = status ∧
            r.message = message ∧ r.data.getD [] = data ∧ (r.data = none ↔ data = [])) ∧
    ∀ b : Bytes, ((∃ r, Response.decode b = .ok r) ↔
        4 ≤ b.length ∧ 4 + (256 * (b.getD 2 0).toNat + (b.getD 3 0).toNat) ≤ b.length) ∧
      ∀ r, Response.decode b = .ok r → b.length ≤ Frame.bodyLimit →
        ∃ frame, r.toFrame = .ok frame ∧ frame.drop 5 = b := by
  refine ⟨Request.lossless, fun b => ⟨Request.decode_isOk_iff b, fun r hr => ?_⟩,
    fun status message data => ⟨Response.encode_isError_iff .., fun frame hframe => ?_⟩,
    fun b => ⟨?_, fun r hr hb => ?_⟩⟩
  · rw [← Request.body_of_decode hr]
    exact Frame.drop_encode ..
  · obtain ⟨hheader, hlength, hbody⟩ := Response.lossless hframe
    exact ⟨hheader, hlength, _, hbody, rfl, rfl, Response.getD_dataOf data,
      Response.dataOf_eq_none_iff data⟩
  · rw [Response.decode_isOk_iff]
    refine and_congr_right fun hfixed => ?_
    rw [Word.decode_take_two b hfixed]
    rfl
  · exact ⟨_, Response.toFrame_of_decode hr hb, Frame.drop_encode ..⟩

/-- A body of a request all of whose marks are set, and one of a response with a status that has no
name, the message `hi` and a byte of data. -/
theorem codec_exact_unknown :
    (∃ r, Request.decode (List.replicate 33 255) = .ok r ∧
      r.encode.drop 5 = List.replicate 32 255 ++ [3]) ∧
    ∃ r, Response.decode [0, 7, 0, 2, 104, 105, 9] = .ok r ∧
      ∃ frame, r.toFrame = .ok frame ∧ frame.drop 5 = [0, 7, 0, 2, 104, 105, 9] := by
  obtain ⟨-, hrequests, -, hresponses⟩ := codec_exact
  constructor
  · obtain ⟨hread, hwritten⟩ := hrequests (List.replicate 33 255)
    obtain ⟨r, hr⟩ := hread.2 (by decide)
    exact ⟨r, hr, (hwritten r hr).trans (by decide)⟩
  · obtain ⟨hread, hwritten⟩ := hresponses [0, 7, 0, 2, 104, 105, 9]
    obtain ⟨r, hr⟩ := hread.2 (by decide)
    exact ⟨r, hr, hwritten r hr (by decide)⟩

end BlockAccess.Wire
