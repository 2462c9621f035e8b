/-!
# Offsets

Offsets and lengths are words of 64 bits.  Sums and differences wrap around, and it depends on the
place whether that can happen; the lemmas here say what words are as natural numbers where it
cannot.
-/

namespace BlockAccess.Offset

theorem toNat_min (a b : UInt64) : (min a b).toNat = min a.toNat b.toNat := by
  simp only [min, UInt64.le_iff_toNat_le]
  rw [apply_ite UInt64.toNat]

theorem toNat_sub {a b : UInt64} (h : b ≤ a) : (a - b).toNat = a.toNat - b.toNat :=
  UInt64.toNat_sub_of_le a b h

theorem toNat_add {a b : UInt64} (h : a.toNat + b.toNat < UInt64.size) :
    (a + b).toNat = a.toNat + b.toNat := by
  rw [UInt64.toNat_add, Nat.mod_eq_of_lt h]

/-- Going on by no more than what is left does not wrap, and leaves that much less. -/
theorem toNat_sub_add {a b n : UInt64} (h : n ≤ a - b) (hle : b ≤ a) :
    (a - (b + n)).toNat = (a - b).toNat - n.toNat := by
  have hsub := toNat_sub hle
  have hn : n.toNat ≤ a.toNat - b.toNat := hsub ▸ UInt64.le_iff_toNat_le.1 h
  have ha : a.toNat < UInt64.size := a.toNat_lt
  have hb : b.toNat ≤ a.toNat := UInt64.le_iff_toNat_le.1 hle
  have hadd : (b + n).toNat = b.toNat + n.toNat := toNat_add (by omega)
  rw [toNat_sub (UInt64.le_iff_toNat_le.2 (by omega)), hadd, hsub]
  omega

end BlockAccess.Offset
