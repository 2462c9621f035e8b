import BlockAccess.Wire.Word

/-!
# Frames

Client and worker exchange frames.  A frame is a header of five bytes, the length of the body in
four and the kind of the message in one, followed by the body.  A header is refused if it announces
a body that is longer than any frame may be or a kind that does not exist; nothing in a frame allows
to find the next one after that.
-/

namespace BlockAccess.Wire

/-- The kinds of messages. -/
inductive Kind where
  | request
  | response
  deriving DecidableEq, Repr

namespace Kind

/-- The number of a kind on the wire. -/
def code : Kind → UInt8
  | request => 1
  | response => 2

/-- The kind of a number. -/
def ofCode? (c : UInt8) : Option Kind :=
  if c = 1 then some request else if c = 2 then some response else none

@[simp] theorem ofCode?_code (k : Kind) : ofCode? k.code = some k := by cases k <;> rfl

end Kind

namespace Frame

/-- The length of a header. -/
def headerSize : Nat := 5

/-- The length that no body may exceed. -/
def bodyLimit : Nat := 16 * 1024 * 1024

/-- What a header announces. -/
structure Header where
  length : Nat
  kind : Kind
  deriving DecidableEq, Repr

/-- The frame of a message. -/
def encode (kind : Kind) (body : Bytes) : Bytes :=
  Word.encode 4 body.length ++ kind.code :: body

/-- Reads a header; `none` if it is refused, or not a whole header. -/
def Header.decode? (b : Bytes) : Option Header :=
  match b.drop 4 with
  | [] => none
  | c :: _ =>
    let length := Word.decode (b.take 4)
    if bodyLimit < length then none
    else (Kind.ofCode? c).map fun kind => { length, kind }

theorem length_encode (kind : Kind) (body : Bytes) :
    (encode kind body).length = headerSize + body.length := by
  simp [encode, headerSize]; omega

/-- The header of a frame announces the frame's body, unless that is too long. -/
theorem decode?_encode {kind : Kind} {body : Bytes} (h : body.length ≤ bodyLimit) :
    Header.decode? (encode kind body) = some { length := body.length, kind } := by
  have hlen : (Word.encode 4 body.length).length = 4 := Word.length_encode ..
  have hfit : body.length < Word.span 4 := Nat.lt_of_le_of_lt h (by decide)
  have hdrop : (encode kind body).drop 4 = kind.code :: body := List.drop_left' hlen
  have htake : (encode kind body).take 4 = Word.encode 4 body.length := List.take_left' hlen
  simp [Header.decode?, hdrop, htake, Word.decode_encode hfit, Nat.not_lt.2 h]

end Frame

end BlockAccess.Wire
