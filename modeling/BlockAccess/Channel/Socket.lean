import BlockAccess.Text

/-!
# Stream sockets

Our end of a connected stream socket.  What the peer has sent arrives in chunks.  How it is cut into
chunks says nothing, but a reader has to cope with it: it takes what is there and asks again.

Behind the last byte there is the end of the stream.  If the peer went away without having read
everything that it was sent, a single failure stands in front of that end.
-/

namespace BlockAccess

/-- A connected stream socket, seen from our end. -/
structure Socket where
  /-- What has arrived and is not read. -/
  chunks : List Bytes := []
  /-- Whether the connection was reset by the peer and this was not told yet. -/
  reset : Bool := false
  /-- Whether the peer still takes what is sent. -/
  peerReads : Bool := true
  deriving DecidableEq, Repr

namespace Socket

/-- Why fewer bytes could be read than were wanted. -/
inductive Shortage where
  | ended
  | reset
  deriving DecidableEq, Repr

/-- Takes up to `n` bytes, chunk after chunk. -/
def takeBytes : Nat → List Bytes → Bytes × List Bytes
  | _, [] => ([], [])
  | n, c :: cs =>
    if n = 0 then ([], c :: cs)
    else if n < c.length then (c.take n, c.drop n :: cs)
    else
      let (b, rest) := takeBytes (n - c.length) cs
      (c ++ b, rest)

/-- Reads exactly `n` bytes.  What was read before the bytes ran out is lost. -/
def readExactly (n : Nat) (s : Socket) : Except Shortage Bytes × Socket :=
  let (b, rest) := takeBytes n s.chunks
  if b.length = n then (.ok b, { s with chunks := rest })
  else if s.reset then (.error .reset, { s with chunks := rest, reset := false })
  else (.error .ended, { s with chunks := rest })

/-- The number of bytes that have arrived and are not read. -/
def arrived (s : Socket) : Nat := s.chunks.flatten.length

/-- The socket with more bytes arrived. -/
def arrive (s : Socket) (b : Bytes) : Socket := { s with chunks := s.chunks ++ [b] }

/-- What is taken and what is left, however the bytes were cut. -/
theorem takeBytes_flatten (n : Nat) (cs : List Bytes) :
    (takeBytes n cs).1 = cs.flatten.take n ∧ (takeBytes n cs).2.flatten = cs.flatten.drop n := by
  induction cs generalizing n with
  | nil => simp [takeBytes]
  | cons c cs ih =>
    by_cases h0 : n = 0
    · simp [takeBytes, h0]
    · by_cases hlt : n < c.length
      · simp [takeBytes, h0, hlt, List.take_append_of_le_length (Nat.le_of_lt hlt),
          List.drop_append_of_le_length (Nat.le_of_lt hlt)]
      · obtain ⟨h1, h2⟩ := ih (n - c.length)
        have hle : c.length ≤ n := Nat.not_lt.1 hlt
        simp only [takeBytes, h0, hlt, if_false, List.flatten_cons]
        rw [List.take_append, List.drop_append, h1, h2, List.take_of_length_le hle,
          List.drop_eq_nil_of_le hle]
        exact ⟨rfl, by simp⟩

/-- Reading takes from what has arrived as many bytes as it gives. -/
theorem arrived_readExactly {n : Nat} {s t : Socket} {b : Bytes}
    (h : s.readExactly n = (.ok b, t)) : b.length = n ∧ t.arrived + n = s.arrived := by
  unfold readExactly at h
  have hcut := takeBytes_flatten n s.chunks
  by_cases hb : (takeBytes n s.chunks).1.length = n
  · simp only [hb, if_true, Prod.mk.injEq, Except.ok.injEq] at h
    obtain ⟨rfl, rfl⟩ := h
    refine ⟨hb, ?_⟩
    rw [hcut.1, List.length_take] at hb
    simp only [arrived, hcut.2, List.length_drop]
    omega
  · simp only [hb, if_false] at h
    split at h <;> simp at h

end Socket

end BlockAccess
