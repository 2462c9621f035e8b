import BlockAccess.Failure

/-!
# Packets

A packet is a piece of a block that a reader hands out.  Its bytes are taken from the front, any
number at a time, and whoever holds the packet gives it back when done with it.  What is given back
still says how large the packet was and what was left in it.
-/

namespace BlockAccess

/-- A packet and how far it is read. -/
structure Packet where
  /-- The bytes not taken yet. -/
  unread : Bytes
  /-- The number of bytes that the packet came with. -/
  size : Nat
  /-- A number to tell packets apart by, for whoever counts them. -/
  serial : Nat := 0
  deriving DecidableEq, Repr

namespace Packet

/-- A packet of the given bytes, none of them taken. -/
def ofBytes (b : Bytes) : Packet := { unread := b, size := b.length }

/-- How many bytes can still be taken. -/
def readable (p : Packet) : Nat := p.unread.length

/-- How much of the packet a caller gets who asks for up to `n` bytes.  Only as many bytes as are
asked for are counted. -/
def portion (p : Packet) (n : UInt64) : UInt64 := UInt64.ofNat (p.unread.take n.toNat).length

/-- Whether `n` bytes are there to be taken. -/
def holds (p : Packet) (n : UInt64) : Bool := (p.unread.take n.toNat).length == n.toNat

/-- Takes `n` bytes from the front; there must be as many. -/
def take (p : Packet) (n : UInt64) : Except Failure Bytes × Packet :=
  if p.holds n then (.ok (p.unread.take n.toNat), { p with unread := p.unread.drop n.toNat })
  else (.error (.misuse (.underflow n p.readable)), p)

/-- The packet without its bytes, as it is once it is given back. -/
def released (p : Packet) : Packet := { p with unread := [] }

@[simp] theorem readable_ofBytes (b : Bytes) : (ofBytes b).readable = b.length := rfl

@[simp] theorem toNat_portion (p : Packet) (n : UInt64) :
    (p.portion n).toNat = min n.toNat p.readable := by
  rw [portion, List.length_take]
  exact UInt64.toNat_ofNat_of_lt' (Nat.lt_of_le_of_lt (Nat.min_le_left ..) n.toNat_lt)

theorem holds_iff (p : Packet) (n : UInt64) : p.holds n = true ↔ n.toNat ≤ p.readable := by
  simp only [holds, readable, List.length_take, beq_iff_eq]
  omega

theorem take_of_le {p : Packet} {n : UInt64} (h : n.toNat ≤ p.readable) :
    p.take n = (.ok (p.unread.take n.toNat), { p with unread := p.unread.drop n.toNat }) := by
  simp [take, (p.holds_iff n).2 h]

/-- A portion is always there to be taken. -/
theorem take_portion (p : Packet) (n : UInt64) :
    p.take (p.portion n) =
      (.ok (p.unread.take n.toNat), { p with unread := p.unread.drop n.toNat }) := by
  rw [take_of_le (by rw [toNat_portion]; exact Nat.min_le_right ..), toNat_portion]
  rcases Nat.le_total n.toNat p.readable with h | h
  · rw [Nat.min_eq_left h]
  · rw [Nat.min_eq_right h, readable, List.take_length, List.drop_length,
      List.take_of_length_le h, List.drop_eq_nil_of_le h]

end Packet

end BlockAccess
