import BlockAccess.Failure
import BlockAccess.Wire.Frame

/-!
# Read responses

A worker answers a request by a run of responses, each with a status, a message and a packet of
data.  A response that reports success and carries no data ends the range; one that reports anything
else ends it too.

The length of the message has two bytes, so a longer message cannot be written; and a body has to
stay within the limit of frames.  Everything behind the message is data, and no bytes there means no
data.
-/

namespace BlockAccess.Wire

/-- A response to a read request. -/
structure Response where
  status : Status := .ok
  message : Text := []
  /-- The packet, if the response carries one. -/
  data : Option Bytes := none
  deriving DecidableEq, Repr

namespace Response

/-- The number of bytes of data in a response. -/
def dataSize (r : Response) : Nat := (r.data.getD []).length

/-- What a body begins with: status and length of the message, two bytes each. -/
def fixedSize : Nat := 4

/-- The length that no message may exceed. -/
def messageLimit : Nat := 65535

/-- Success without data, the mark behind the last packet of a range. -/
def endMark : Response := {}

/-- Whether a response is a packet of the range: success, with data. -/
def isPacket (r : Response) : Bool := r.status = Status.ok && r.data.isSome

/-- The body of a response. -/
def body (status : Status) (message : Text) (data : Bytes) : Bytes :=
  Word.encode 2 status.code.toNat ++ Word.encode 2 message.length ++ message ++ data

/-- The frame of a response. -/
def encode (status : Status) (message : Text) (data : Bytes) : Except Failure Bytes :=
  let size := fixedSize + message.length + data.length
  if messageLimit < message.length then .error (.misuse .messageTooLong)
  else if Frame.bodyLimit < size then .error (.misuse (.frameTooLong size))
  else .ok (Frame.encode .response (body status message data))

/-- The data that the bytes behind a message are: no bytes are no data. -/
def dataOf : Bytes → Option Bytes
  | [] => none
  | c :: r => some (c :: r)

@[simp] theorem getD_dataOf (b : Bytes) : (dataOf b).getD [] = b := by cases b <;> rfl

/-- Reads a body. -/
def decode (b : Bytes) : Except Failure Response :=
  if b.length < fixedSize then .error (.transport (.malformedResponse b.length))
  else
    let messageLength := Word.decode ((b.drop 2).take 2)
    if b.length < fixedSize + messageLength then
      .error (.transport (.messageOverrun (UInt16.ofNat messageLength) b.length))
    else
      let rest := b.drop fixedSize
      .ok { status := ⟨UInt16.ofNat (Word.decode (b.take 2))⟩
            message := rest.take messageLength
            data := dataOf (rest.drop messageLength) }

/-- The frame of a response, given as one value. -/
def toFrame (r : Response) : Except Failure Bytes :=
  encode r.status r.message (r.data.getD [])

theorem length_body (status : Status) (message : Text) (data : Bytes) :
    (body status message data).length = fixedSize + message.length + data.length := by
  simp [body, fixedSize]; omega

/-- A body is longer than the data read from it. -/
theorem dataSize_decode {b : Bytes} {r : Response} (h : decode b = .ok r) :
    r.dataSize < b.length := by
  simp only [decode] at h
  split at h
  · simp at h
  next hfixed =>
  split at h
  · simp at h
  simp only [Except.ok.injEq] at h
  subst h
  simp only [dataSize, getD_dataOf, List.length_drop]
  simp only [fixedSize] at hfixed ⊢
  omega

end Response

end BlockAccess.Wire
