import BlockAccess.Proofs.Stream.Queries

/-!
# Two ways to the bytes at a place

A client can read at a position, or open a second stream of the same length, move it there and read
in sequence until there is enough (`readThrough`).  Over a source that delivers the block both ways
are told by the block alone: the second stream gives the bytes in front of the declared end, while a
positioned read that begins in front of the declared end goes on beyond it as far as the block does
(`visited`).

So they differ on the ranges that begin in front of the declared end and go across it, if the block
goes across it too, and on no others (`readAt_agrees_iff`).
-/

namespace BlockAccess

open Offset

/-- The bytes from a place on, up to so many; there are none in front of the first. -/
def stretch (b : Bytes) (target : Int64) (count : UInt64) : Bytes :=
  if target < 0 then [] else (b.drop target.toUInt64.toNat).take count.toNat

/-- The bytes that a positioned read obtains: those of its range, if that begins in front of the
declared end. -/
def visited (b : Bytes) (length : UInt64) (target : Int64) (count : UInt64) : Bytes :=
  if length ≤ target.toUInt64 then [] else stretch b target count

/-- The range begins in front of the declared end, goes across it, and so does the block. -/
def Crosses (b : Bytes) (length : UInt64) (target : Int64) (count : UInt64) : Prop :=
  0 ≤ target.toInt ∧ target.toInt < length.toNat ∧
    (length.toNat : Int) < target.toInt + count.toNat ∧ length.toNat < b.length

instance (b : Bytes) (length : UInt64) (target : Int64) (count : UInt64) :
    Decidable (Crosses b length target count) :=
  inferInstanceAs (Decidable (_ ∧ _ ∧ _ ∧ _))

section

variable {S : Bytes} {length : UInt64} {target : Int64} {count : UInt64}

theorem stretch_of_neg (h : target < 0) (b : Bytes) : stretch b target count = [] := if_pos h

/-- Both ways come to the same bytes, unless the range crosses the declared end. -/
theorem visited_eq (h : ¬Crosses S length target count) :
    visited S length target count = stretch (S.take length.toNat) target count := by
  by_cases hneg : target < 0
  · rw [visited, stretch_of_neg hneg, stretch_of_neg hneg, ite_self]
  have hstart : 0 ≤ target.toInt := by
    rw [neg_iff] at hneg
    omega
  have hnat := toNat_toUInt64 hstart
  rw [visited, stretch, stretch, if_neg hneg, if_neg hneg, List.drop_take, List.take_take]
  by_cases hpast : length ≤ target.toUInt64
  · rw [if_pos hpast]
    rw [UInt64.le_iff_toNat_le] at hpast
    rw [Nat.sub_eq_zero_of_le hpast, Nat.min_zero, List.take_zero]
  rw [if_neg hpast]
  rw [UInt64.le_iff_toNat_le] at hpast
  have hcases (hacross : length.toNat < target.toUInt64.toNat + count.toNat) :
      S.length ≤ length.toNat := by
    refine Nat.le_of_not_lt fun hlonger => h ⟨hstart, ?_, ?_, hlonger⟩
    · omega
    · omega
  by_cases hwithin : target.toUInt64.toNat + count.toNat ≤ length.toNat
  · rw [Nat.min_eq_left (by omega)]
  · -- the block ends before the declared end does, so nothing is cut off
    have hshort := hcases (by omega)
    have hdrop : (S.drop target.toUInt64.toNat).length ≤ length.toNat - target.toUInt64.toNat := by
      rw [List.length_drop]
      omega
    rw [List.take_eq_take_iff]
    omega

/-- A range that crosses the declared end gives more bytes at a position. -/
theorem length_stretch_lt (h : Crosses S length target count) :
    (stretch (S.take length.toNat) target count).length <
      (visited S length target count).length := by
  obtain ⟨hstart, hbefore, hacross, hlonger⟩ := h
  have hnat := toNat_toUInt64 hstart
  have hneg : ¬target < 0 := by
    rw [neg_iff]
    omega
  have hpast : ¬length ≤ target.toUInt64 := by
    rw [UInt64.le_iff_toNat_le]
    omega
  rw [visited, if_neg hpast, stretch, stretch, if_neg hneg, if_neg hneg]
  simp only [List.length_take, List.length_drop]
  omega

end

namespace Stream

variable {W R : Type} [Journaled W] {src : Source W R} {S : Bytes} {length : UInt64}

/-- Reads at a position by a second stream of the same length: it is moved there, and reads in
sequence until the window is full or the end is met.  Gives the number of bytes, or none if there
are none, and the memory. -/
def readThrough (src : Source W R) (block length : UInt64) (target : Int64)
    (memory : Option Destination) (offset count : UInt64) (w : W) :
    Except Failure (Option Nat) × Option Destination :=
  if target < 0 || length < target.toUInt64 then (.ok none, memory)
  else
    match (start block length).seek src target w with
    | (.error f, _, _) => (.error f, memory)
    | (.ok (), s, w) =>
      match fillWindow src memory offset count s w with
      | (result, memory, _, _) => (result.map fun n => if n = 0 then none else some n, memory)

theorem countOf_eq (b : Bytes) : countOf b = if b.length = 0 then none else some b.length := by
  cases b <;> rfl

theorem length_eq_of_countOf {b b' : Bytes} (h : countOf b = countOf b') :
    b.length = b'.length := by
  rw [countOf_eq, countOf_eq] at h
  split at h <;> split at h <;> simp at h <;> omega

/-- **A second stream gives the bytes in front of the declared end**, and never one behind it. -/
theorem readThrough_eq (hL : length.toNat < signedLimit) (c : src.Conforming S) {w : W}
    (hw : c.Fair w) (block : UInt64) (target : Int64) {d : Destination} {offset count : UInt64}
    (hd : d.admits offset count = true) :
    readThrough src block length target (some d) offset count w =
      (.ok (countOf (stretch (S.take length.toNat) target count)),
        some (d.put offset.toNat (stretch (S.take length.toNat) target count))) := by
  unfold readThrough
  by_cases hneg : target < 0
  · rw [if_pos (by simp [hneg]), stretch_of_neg hneg, Destination.put_nil]
    rfl
  by_cases hpast : length < target.toUInt64
  · have hnothing : stretch (S.take length.toNat) target count = [] := by
      rw [stretch, if_neg hneg, List.drop_eq_nil_of_le, List.take_nil]
      rw [UInt64.lt_iff_toNat_lt] at hpast
      rw [List.length_take]
      omega
    rw [if_pos (by simp [hpast]), hnothing, Destination.put_nil]
    rfl
  obtain ⟨s, w₁, hseek, hstands⟩ := (stands_start c hw block length).seek hL hneg hpast
  obtain ⟨s', w', hfill, -⟩ := hstands.fillWindow hd
  rw [if_neg (by simp [hneg, hpast]), hseek]
  dsimp only
  rw [hfill, countOf_eq, stretch, if_neg hneg]
  rfl

/-- **A positioned read gives the bytes of its range**, also those behind the declared end. -/
theorem readAtInto_eq (c : src.Conforming S) {s : Stream R} (hopen : s.closed = false)
    (hlength : s.length = length) {w : W} (hw : c.Fair w) (target : Int64) {d : Destination}
    {offset count : UInt64} (hd : d.admits offset count = true) (hcount : count ≠ 0) : ∃ w',
    s.readAtInto src target (some d) offset count w =
      (.ok (countOf (visited S length target count)),
        some (d.put offset.toNat (visited S length target count)), w') := by
  have hwindow : s.destination? (some d) offset count = .ok d := by
    unfold destination?
    rw [if_neg (by simp [hopen])]
    exact if_pos hd
  unfold readAtInto
  rw [hwindow]
  dsimp only
  by_cases hpast : (target < 0 || s.length ≤ target.toUInt64) = true
  · have hread : s.readAt src target count w = (.ok none, [], w) := by
      unfold readAt
      rw [if_neg (by simp [hopen]), if_neg hcount, if_pos hpast]
    have hnothing : visited S length target count = [] := by
      rw [Bool.or_eq_true, decide_eq_true_eq, decide_eq_true_eq, hlength] at hpast
      rcases hpast with hneg | hpast
      · rw [visited, stretch_of_neg hneg, ite_self]
      · rw [visited, if_pos hpast]
    rw [hread, hnothing]
    exact ⟨w, rfl⟩
  · obtain ⟨w', hread, -⟩ := readAt_of_lt c hopen hw hcount hpast
    have hrange : visited S length target count = range S target.toUInt64 count := by
      rw [Bool.or_eq_true, decide_eq_true_eq, decide_eq_true_eq, hlength, not_or] at hpast
      rw [visited, if_neg hpast.2, stretch, if_neg hpast.1, range]
    rw [hread, hrange]
    exact ⟨w', rfl⟩

/-- **Positioned reads and reads in sequence agree** exactly on the ranges that do not cross the
declared end together with the block.  The stream that reads at a position is any open one, and the
second stream may be opened at any time. -/
theorem readAt_agrees_iff (hL : length.toNat < signedLimit) (c : src.Conforming S) {s : Stream R}
    (hopen : s.closed = false) (hlength : s.length = length) {w v : W} (hw : c.Fair w)
    (hv : c.Fair v) (block : UInt64) (target : Int64) {d : Destination} {offset count : UInt64}
    (hd : d.admits offset count = true) (hcount : count ≠ 0) :
    (∃ w', s.readAtInto src target (some d) offset count w =
      (.ok (countOf (visited S length target count)),
        some (d.put offset.toNat (visited S length target count)), w')) ∧
    readThrough src block length target (some d) offset count v =
      (.ok (countOf (stretch (S.take length.toNat) target count)),
        some (d.put offset.toNat (stretch (S.take length.toNat) target count))) ∧
    ((s.readAtInto src target (some d) offset count w).1 =
          (readThrough src block length target (some d) offset count v).1 ∧
        (s.readAtInto src target (some d) offset count w).2.1 =
          (readThrough src block length target (some d) offset count v).2 ↔
      ¬Crosses S length target count) := by
  obtain ⟨w', hat⟩ := readAtInto_eq c hopen hlength hw target hd hcount
  have hthrough := readThrough_eq hL c hv block target hd
  refine ⟨⟨w', hat⟩, hthrough, ?_⟩
  rw [hat, hthrough]
  constructor
  · rintro ⟨hresult, -⟩ hcrosses
    have hsame := length_eq_of_countOf (Except.ok.inj hresult)
    have hmore := length_stretch_lt hcrosses
    omega
  · intro hcrosses
    rw [visited_eq hcrosses]
    exact ⟨rfl, rfl⟩

/-- A block of ten bytes. -/
def tens : SourceScript where
  block := [3, 10, 17, 24, 31, 38, 45, 52, 59, 66]

theorem steady_tens (n : Nat) :
    n ∉ tens.failingCreates ∧ ((forCall? tens.readers n).getD {}).Steady :=
  ⟨List.not_mem_nil, ReaderScript.steady_default⟩

/-- Two bytes up to the declared end of six are the same both ways. -/
theorem readAt_agrees_iff_tens :
    (6 : UInt64).toNat < signedLimit ∧ (tens.conforming 0 fun n _ => steady_tens n).Fair {} ∧
    (⟨2, [0, 0]⟩ : Destination).admits 0 2 = true ∧ (2 : UInt64) ≠ 0 ∧
    ((start 42 6).readAtInto (tens.source (W := Site)) 4 (some ⟨2, [0, 0]⟩) 0 2 {}).1 =
      (readThrough (tens.source (W := Site)) 42 6 4 (some ⟨2, [0, 0]⟩) 0 2 {}).1 ∧
    ((start 42 6).readAtInto (tens.source (W := Site)) 4 (some ⟨2, [0, 0]⟩) 0 2 {}).2.1 =
      (readThrough (tens.source (W := Site)) 42 6 4 (some ⟨2, [0, 0]⟩) 0 2 {}).2 := by
  have hL : (6 : UInt64).toNat < signedLimit := by decide
  have hd : (⟨2, [0, 0]⟩ : Destination).admits 0 2 = true := by decide
  have hfair : (tens.conforming 0 fun n _ => steady_tens n).Fair {} := Nat.zero_le _
  obtain ⟨-, -, hiff⟩ := readAt_agrees_iff hL (tens.conforming 0 fun n _ => steady_tens n)
    (s := start 42 6) rfl rfl hfair hfair 42 4 hd (by decide)
  exact ⟨hL, hfair, hd, by decide, hiff.2 (by decide)⟩

/-- Four bytes from the same place go across the declared end.  At a position all four are given,
and in sequence the two in front of it. -/
theorem readAt_ne_readThrough_tens : ∃ c : (tens.source (W := Site)).Conforming tens.block,
    c.Fair {} ∧
    ((start 42 6).readAtInto (tens.source (W := Site)) 4 (some ⟨4, [0, 0, 0, 0]⟩) 0 4 {}).1 =
      .ok (some 4) ∧
    ((start 42 6).readAtInto (tens.source (W := Site)) 4 (some ⟨4, [0, 0, 0, 0]⟩) 0 4 {}).2.1 =
      some ⟨4, [31, 38, 45, 52]⟩ ∧
    readThrough (tens.source (W := Site)) 42 6 4 (some ⟨4, [0, 0, 0, 0]⟩) 0 4 {} =
      (.ok (some 2), some ⟨4, [31, 38, 0, 0]⟩) := by
  have hL : (6 : UInt64).toNat < signedLimit := by decide
  have hd : (⟨4, [0, 0, 0, 0]⟩ : Destination).admits 0 4 = true := by decide
  refine ⟨tens.conforming 0 fun n _ => steady_tens n, Nat.zero_le _, ?_⟩
  obtain ⟨w', hat⟩ := readAtInto_eq (tens.conforming 0 fun n _ => steady_tens n)
    (s := start 42 6) (w := {}) rfl rfl (Nat.zero_le _) 4 hd (by decide)
  rw [hat, readThrough_eq hL (tens.conforming 0 fun n _ => steady_tens n) (Nat.zero_le _) 42 4 hd]
  exact ⟨rfl, rfl, rfl⟩

end Stream

end BlockAccess
