import BlockAccess.Text

/-!
# Words on the wire

Numbers travel with their most significant byte first.  Writing and reading are defined on natural
numbers with the width as a parameter, so that one law covers the widths of one, two, four and eight
bytes that occur.  `span` is the number of words of a width, so a number fits if it is below it.

`swapped` is the other order read as this one: what a machine that keeps its least significant byte
first has in memory for a number on the wire.
-/

namespace BlockAccess.Wire.Word

/-- The number of words of a width. -/
def span : (width : Nat) → Nat
  | 0 => 1
  | width + 1 => span width * 256

/-- The `width` low bytes of a number, the most significant first. -/
def encode : (width : Nat) → (n : Nat) → Bytes
  | 0, _ => []
  | width + 1, n => UInt8.ofNat (n / span width) :: encode width n

/-- The number that bytes write, the most significant first. -/
def decode (b : Bytes) : Nat := b.foldl (fun n c => 256 * n + c.toNat) 0

/-- The number with its `width` low bytes in reverse order. -/
def swapped (width n : Nat) : Nat := decode (encode width n).reverse

theorem span_pos (width : Nat) : 0 < span width := by
  induction width with
  | zero => decide
  | succ width ih => exact Nat.mul_pos ih (by decide)

@[simp] theorem length_encode (width n : Nat) : (encode width n).length = width := by
  induction width with
  | zero => rfl
  | succ width ih => simp [encode, ih]

theorem foldl_append_byte (b : Bytes) (n : Nat) :
    b.foldl (fun n c => 256 * n + c.toNat) n = n * span b.length + decode b := by
  induction b generalizing n with
  | nil => simp [decode, span]
  | cons c b ih =>
    have h : decode (c :: b) = c.toNat * span b.length + decode b := by
      rw [decode, List.foldl_cons, ih, Nat.mul_zero, Nat.zero_add]
    have hp : 256 * n * span b.length = n * span (b.length + 1) := by
      rw [span, Nat.mul_comm 256 n, Nat.mul_assoc, Nat.mul_comm 256]
    rw [List.foldl_cons, ih, h, List.length_cons, Nat.add_mul, hp, Nat.add_assoc]

theorem decode_cons (c : UInt8) (b : Bytes) :
    decode (c :: b) = c.toNat * span b.length + decode b := by
  rw [decode, List.foldl_cons, foldl_append_byte]
  simp

theorem decode_lt (b : Bytes) : decode b < span b.length := by
  induction b with
  | nil => simp [decode, span]
  | cons c b ih =>
    rw [decode_cons, List.length_cons, span]
    have hc : c.toNat ≤ 255 := Nat.le_of_lt_succ c.toNat_lt
    have hm : c.toNat * span b.length ≤ 255 * span b.length := Nat.mul_le_mul_right _ hc
    omega

theorem decode_encode_mod (width n : Nat) : decode (encode width n) = n % span width := by
  induction width with
  | zero => simp [encode, decode, span, Nat.mod_one]
  | succ width ih =>
    rw [encode, decode_cons, ih, length_encode, span]
    have h : (UInt8.ofNat (n / span width)).toNat = n / span width % 256 := by simp
    rw [h, Nat.mod_mul, Nat.mul_comm, Nat.add_comm]

/-- Reading takes back what writing gave, if the number fits. -/
theorem decode_encode {width n : Nat} (h : n < span width) : decode (encode width n) = n := by
  rw [decode_encode_mod, Nat.mod_eq_of_lt h]

/-- Writing takes back what reading gave. -/
theorem encode_decode (b : Bytes) : encode b.length (decode b) = b := by
  have key : ∀ (k : Nat) (b : Bytes), encode b.length (k * span b.length + decode b) = b := by
    intro k b
    induction b generalizing k with
    | nil => simp [encode]
    | cons c b ih =>
      have hsplit : k * (span b.length * 256) + (c.toNat * span b.length + decode b)
          = (k * 256 + c.toNat) * span b.length + decode b := by
        rw [Nat.add_mul, Nat.mul_assoc, Nat.mul_comm 256, Nat.add_assoc]
      rw [List.length_cons, encode, decode_cons, span, hsplit, ih]
      congr 1
      rw [Nat.add_comm, Nat.add_mul_div_right _ _ (span_pos _), Nat.div_eq_of_lt (decode_lt b),
        Nat.zero_add]
      apply UInt8.toNat_inj.1
      simp
  have h := key 0 b
  rwa [Nat.zero_mul, Nat.zero_add] at h

end BlockAccess.Wire.Word
