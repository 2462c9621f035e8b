import BlockAccess.Offset

/-!
# Offsets as signed numbers

A client names offsets as signed words and is told lengths as signed words, while a stream keeps
both as unsigned ones.  Below 2^63 the two readings of a word agree.  The lemmas here say so for
the conversions and for `min`, which are all that a stream does with signed words.
-/

namespace BlockAccess.Offset

/-- The words below this number read the same with and without a sign. -/
def signedLimit : Nat := 9223372036854775808

theorem toInt_toInt64 {x : UInt64} (h : x.toNat < signedLimit) : x.toInt64.toInt = x.toNat := by
  show x.toBitVec.toInt = x.toBitVec.toNat
  rw [BitVec.toInt_eq_toNat_cond, if_pos]
  have hx : x.toBitVec.toNat < signedLimit := h
  simp only [signedLimit] at hx
  omega

theorem toNat_toUInt64 {t : Int64} (h : 0 ≤ t.toInt) : (t.toUInt64.toNat : Int) = t.toInt := by
  show (t.toBitVec.toNat : Int) = t.toBitVec.toInt
  have ht : 0 ≤ t.toBitVec.toInt := h
  rw [BitVec.toInt_eq_toNat_cond] at ht ⊢
  split at ht
  · next hlt => rw [if_pos hlt]
  · have := t.toBitVec.isLt
    omega

theorem toInt_min (a b : Int64) : (min a b).toInt = min a.toInt b.toInt := by
  simp only [min, Int64.le_iff_toInt_le]
  rw [apply_ite Int64.toInt]

theorem neg_iff (t : Int64) : t < 0 ↔ t.toInt < 0 := by
  rw [Int64.lt_iff_toInt_lt, Int64.toInt_zero]

/-- A word that is not below zero comes before the same words with and without its sign. -/
theorem toNat_lt_iff {t : Int64} {x : UInt64} (h : 0 ≤ t.toInt) :
    x < t.toUInt64 ↔ (x.toNat : Int) < t.toInt := by
  rw [UInt64.lt_iff_toNat_lt, ← toNat_toUInt64 h]
  omega

end BlockAccess.Offset
