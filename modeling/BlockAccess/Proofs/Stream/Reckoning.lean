import Mathlib
import BlockAccess.Proofs.Stream.Blame
import BlockAccess.Proofs.Stream.Buffered

/-!
# Reckoning with signed words

A stream may be declared as long as a word of 64 bits allows, but what it tells of its length it
tells in signed words, and these end at 2^63.  `Step.Reckons` says what comes of that at any place
up to the declared end.  With less than 2^63 bytes in front of the end, what is left is told exactly
and what is passed over is the smaller of two numbers.  With more, both are told as 2^64 less than
what is left, which is a number below zero, and passing over any bytes at all leads to the end.

A buffer adds an offset to a place or to the declared length.  It does so in signed words as well
(`StreamBuffer.Reckons`): the word is the sum exactly if there is a word for the sum.  For a length
below 2^63 a sum that has no word is beyond the end, and the word for it is below zero, so it is
refused all the same.
-/

namespace BlockAccess

namespace Offset

/-- A word that is too large to be read with a sign is read as 2^64 less. -/
theorem toInt_toInt64_of_le {x : UInt64} (h : signedLimit ≤ x.toNat) :
    x.toInt64.toInt = x.toNat - 18446744073709551616 := by
  show x.toBitVec.toInt = x.toBitVec.toNat - 18446744073709551616
  have hx : signedLimit ≤ x.toBitVec.toNat := h
  simp only [signedLimit] at hx
  rw [BitVec.toInt_eq_toNat_cond, if_neg (by omega)]
  rfl

/-- A sum of a number and a signed word is told by the sum in words exactly if there is a word for
it. -/
theorem toInt_ofNat_add_eq_iff (base : Nat) (k : Int64) :
    (Int64.ofNat base + k).toInt = base + k.toInt ↔
      -(signedLimit : Int) ≤ base + k.toInt ∧ base + k.toInt < signedLimit := by
  have hsum : Int64.ofNat base + k = .ofInt (base + k.toInt) := by
    rw [Int64.ofInt_add, Int64.ofInt_toInt, Int64.ofInt_eq_ofNat]
  constructor
  · intro h
    rw [← h]
    exact ⟨Int64.le_toInt _, Int64.toInt_lt _⟩
  · rintro ⟨hlower, hupper⟩
    rw [hsum, Int64.toInt_ofInt]
    simp only [signedLimit] at hlower hupper
    exact Int.bmod_eq_of_le (by simp only [Int64.size]; omega) (by simp only [Int64.size]; omega)

end Offset

open Offset

namespace Stream

variable {W R : Type}

/-! ## Passing over bytes -/

/-- The number of bytes in front of the declared end. -/
def distance (s : Stream R) : Nat := s.length.toNat - s.position.toNat

variable {s : Stream R} {n : Int64}

theorem toNat_rest (hle : s.position ≤ s.length) : s.rest.toNat = s.distance := toNat_sub hle

/-- What is left is told with a sign. -/
theorem toInt_rest (hle : s.position ≤ s.length) : s.rest.toInt64.toInt =
    if s.distance < signedLimit then (s.distance : Int) else s.distance - 18446744073709551616 := by
  have hrest := toNat_rest hle
  split
  · next hless => rw [toInt_toInt64 (by omega), hrest]
  · next hmore => rw [toInt_toInt64_of_le (by omega), hrest]

/-- With less than 2^63 bytes left, passing over goes on by what it tells. -/
theorem passed_of_lt (hle : s.position ≤ s.length) (hless : s.distance < signedLimit)
    (hn : 0 < n.toInt) : (min s.rest.toInt64 n).toInt = min n.toInt s.distance ∧
      (s.position + (min s.rest.toInt64 n).toUInt64).toNat =
        s.position.toNat + min n.toInt.toNat s.distance := by
  have hamount : (min s.rest.toInt64 n).toInt = min n.toInt s.distance := by
    rw [toInt_min, toInt_rest hle, if_pos hless, Int.min_comm]
  have hword := toNat_toUInt64 (t := min s.rest.toInt64 n) (by omega)
  have hplace := UInt64.le_iff_toNat_le.1 hle
  have hlimit := s.length.toNat_lt
  refine ⟨hamount, ?_⟩
  rw [toNat_add]
  · omega
  · simp only [distance] at hamount
    simp only [UInt64.size]
    omega

/-- With more bytes left, what is told is below zero, and the stream goes to its end. -/
theorem passed_of_le (hle : s.position ≤ s.length) (hmore : signedLimit ≤ s.distance)
    (hn : 0 < n.toInt) :
    (min s.rest.toInt64 n).toInt = s.distance - 18446744073709551616 ∧
      s.position + (min s.rest.toInt64 n).toUInt64 = s.length := by
  have hleft := toInt_rest hle
  rw [if_neg (Nat.not_lt.2 hmore)] at hleft
  have hlimit := s.length.toNat_lt
  have hneg : s.rest.toInt64 ≤ n := by
    rw [Int64.le_iff_toInt_le, hleft, distance]
    omega
  have hmin : min s.rest.toInt64 n = s.rest.toInt64 := if_pos hneg
  rw [hmin]
  refine ⟨hleft, ?_⟩
  rw [UInt64.toUInt64_toInt64, rest, UInt64.add_comm, UInt64.sub_add_cancel]

/-- Passing over bytes ends as giving up the reader does. -/
theorem skip_of_pos {src : Source W R} {w : W} {x : Except Failure Unit} {q : Stream R × W}
    (hopen : s.closed = false) (hended : s.ended = false) (hn : 0 < n.toInt)
    (hd : dropReader src { s with position := s.position + (min s.rest.toInt64 n).toUInt64 } w =
      (x, q)) : s.skip src n w = (x.map fun _ => min s.rest.toInt64 n, q) := by
  have hleft : s.remaining = .ok s.rest.toInt64 := by
    rw [remaining, if_neg (by simp [hopen]), hended]
    rfl
  have hpos : ¬n ≤ 0 := by
    rw [Int64.le_iff_toInt_le, Int64.toInt_zero]
    omega
  unfold skip
  rw [hleft]
  simp only [if_neg hpos, hd]
  cases x <;> rfl

variable [Journaled W]

/-- How a call reckons from its place to the declared end. -/
structure Step.Reckons (st : Step (Observed W) (Numbered R)) : Prop where
  /-- What is left is told exactly if there is a signed word for it, and else as 2^64 less. -/
  remaining : st.op = .remaining → ∃ left, st.outcome.result = .ok (.amount left) ∧
    left.toInt = if st.before.1.distance < signedLimit then (st.before.1.distance : Int)
      else st.before.1.distance - 18446744073709551616
  /-- With less than 2^63 bytes left, no more of them are passed over than there are, and the stream
  goes on by the number that is told. -/
  passes : ∀ n, st.op = .skip n → 0 < n.toInt → st.before.1.distance < signedLimit →
    st.after.1.position.toNat =
        st.before.1.position.toNat + min n.toInt.toNat st.before.1.distance ∧
      ∀ k, st.outcome.result = .ok (.amount k) → k.toInt = min n.toInt st.before.1.distance
  /-- With more bytes left, what is told is below zero, and the stream goes to its end. -/
  overshoots : ∀ n, st.op = .skip n → 0 < n.toInt → signedLimit ≤ st.before.1.distance →
    st.after.1.position = st.before.1.length ∧ ∀ k, st.outcome.result = .ok (.amount k) →
      k.toInt = st.before.1.distance - 18446744073709551616
  /-- Passing over bytes ends well unless a reader fails to close. -/
  ends_well : ∀ n, st.op = .skip n → 0 < n.toInt →
    (∀ e ∈ st.events, ¬e.ClosesReader false) → ∃ k, st.outcome.result = .ok (.amount k)

/-- Passing over bytes tells how many, unless its reader fails to close, and that is seen. -/
theorem step_skip_of_pos (src : Source W R) {p : Stream (Numbered R) × Observed W}
    (hopen : p.1.closed = false) (hended : p.1.ended = false) (hn : 0 < n.toInt) :
    ∃ x : Except Failure Unit,
      (step src.observed (.skip n) p).outcome.result =
          x.map (fun _ => Answer.amount (min p.1.rest.toInt64 n)) ∧
        (step src.observed (.skip n) p).after.1.position =
          p.1.position + (min p.1.rest.toInt64 n).toUInt64 ∧
        ∀ f, x = .error f →
          ∃ e ∈ (step src.observed (.skip n) p).events, e.ClosesReader false := by
  rcases hd : dropReader src.observed
    { p.1 with position := p.1.position + (min p.1.rest.toInt64 n).toUInt64 } p.2 with ⟨x, s', o'⟩
  have hsnd := congrArg (fun z => z.2.1) hd
  dsimp only at hsnd
  rw [dropReader_snd] at hsnd
  have hstep : step src.observed (.skip n) p =
      ⟨.skip n, p, { result := x.map fun _ => .amount (min p.1.rest.toInt64 n) }, (s', o')⟩ := by
    simp only [step, perform, skip_of_pos hopen hended hn hd]
    cases x <;> rfl
  rw [hstep, ← hsnd]
  refine ⟨x, rfl, rfl, ?_⟩
  rintro f rfl
  obtain ⟨-, es, e, hes, hcloses, -⟩ := blames_dropReader p.1.block hd
  exact ⟨e, mem_events hes, hcloses⟩

omit [Journaled W] in
theorem eq_of_told {x : Except Failure Unit} {j k : Int64}
    (h : x.map (fun _ => Answer.amount j) = .ok (.amount k)) : k = j := by
  cases x with
  | error f => simp [Except.map] at h
  | ok => exact (Answer.amount.inj (Except.ok.inj h)).symm

theorem reckons_step (src : Source W R) (op : Op) {p : Stream (Numbered R) × Observed W}
    (hopen : p.1.closed = false) (hended : p.1.ended = false)
    (hle : p.1.position ≤ p.1.length) : (step src.observed op p).Reckons := by
  constructor
  case remaining =>
    intro hop
    obtain rfl : op = .remaining := hop
    refine ⟨p.1.rest.toInt64, ?_, toInt_rest hle⟩
    simp [step, perform, Stream.remaining, hopen, hended, Except.map]
  case passes =>
    intro n hop hn hless
    obtain rfl : op = .skip n := hop
    obtain ⟨x, hresult, hposition, -⟩ := step_skip_of_pos src hopen hended hn
    obtain ⟨hamount, hplace⟩ := passed_of_lt hle hless hn
    refine ⟨(congrArg UInt64.toNat hposition).trans hplace, fun k hk => ?_⟩
    rw [eq_of_told (hresult.symm.trans hk)]
    exact hamount
  case overshoots =>
    intro n hop hn hmore
    obtain rfl : op = .skip n := hop
    obtain ⟨x, hresult, hposition, -⟩ := step_skip_of_pos src hopen hended hn
    obtain ⟨hamount, hplace⟩ := passed_of_le hle hmore hn
    refine ⟨hposition.trans hplace, fun k hk => ?_⟩
    rw [eq_of_told (hresult.symm.trans hk)]
    exact hamount
  case ends_well =>
    intro n hop hn hclean
    obtain rfl : op = .skip n := hop
    obtain ⟨x, hresult, -, hfails⟩ := step_skip_of_pos src hopen hended hn
    cases x with
    | ok => exact ⟨_, hresult⟩
    | error f =>
      obtain ⟨e, he, hcloses⟩ := hfails f rfl
      exact absurd hcloses (hclean e he)

end Stream

/-! ## Moving a buffer -/

namespace StreamBuffer

variable {W R : Type} {b : StreamBuffer} {s : Stream R} {place : Nat}

/-- How a buffer at a place reckons where a move leads to. -/
structure Reckons (place : Nat) (b : StreamBuffer) (s : Stream R) : Prop where
  /-- The place is told exactly if there is a signed word for it. -/
  position_iff : (b.position s).toInt = place ↔ place < signedLimit
  /-- Where a move leads to is told exactly if there is a signed word for it. -/
  target_iff : ∀ (offset : Int64) (origin : Origin) (base : Nat),
    origin.base? s.length.toNat place = some base →
    ∃ target, b.target? s offset origin = some target ∧
      (target.toInt = base + offset.toInt ↔
        -(signedLimit : Int) ≤ base + offset.toInt ∧ base + offset.toInt < signedLimit)
  /-- Below 2^63 a move that ends well lands where exact numbers lead to. -/
  seek : s.length.toNat < signedLimit → ∀ (W : Type) (src : Source W R) (w : W) (offset : Int64)
    (origin : Origin) (input : Bool) x q,
    b.seek src offset origin input s w = (.ok x, q) →
      x = (landing? s.length.toNat place offset origin input).map .ofNat

theorem landing_of_seek {src : Source W R} {w : W} {offset : Int64} {origin : Origin} {input : Bool}
    {x : Option Int64} {q : StreamBuffer × Stream R × W}
    (h : s.position.toNat = place + b.ahead.length) (hle : place ≤ s.length.toNat)
    (hL : s.length.toNat < signedLimit)
    (hseek : b.seek src offset origin input s w = (.ok x, q)) :
    x = (landing? s.length.toNat place offset origin input).map .ofNat := by
  have htarget := target?_eq h offset origin
  unfold StreamBuffer.seek at hseek
  rw [htarget] at hseek
  unfold landing?
  cases input with
  | false =>
    simp only [Bool.not_false, if_true, Prod.mk.injEq, Except.ok.injEq] at hseek
    exact hseek.1.symm
  | true =>
    simp only [Bool.not_true, Bool.false_eq_true, if_false] at hseek
    cases hbase : origin.base? s.length.toNat place with
    | none =>
      simp only [hbase, Option.map_none, Prod.mk.injEq, Except.ok.injEq] at hseek
      exact hseek.1.symm
    | some base =>
      simp only [hbase, Option.map_some] at hseek
      simp only [if_true]
      rcases sum_cases (base_le hle hbase) hL offset with ⟨hland, hsum⟩ | ⟨hland, hrefused⟩
      · have hinside : (base + offset.toInt).toNat ≤ s.length.toNat := by omega
        obtain ⟨hneg, hpast, -⟩ := ofNat_within hinside hL
        rw [if_pos hland]
        rw [hsum] at hseek
        simp only [hneg, hpast, decide_false, Bool.or_self, Bool.false_eq_true, if_false] at hseek
        split at hseek
        · exact (Except.ok.inj (congrArg Prod.fst hseek)).symm
        split at hseek
        · simp at hseek
        · exact (Except.ok.inj (congrArg Prod.fst hseek)).symm
      · rw [if_pos hrefused] at hseek
        rw [if_neg hland]
        exact (Except.ok.inj (congrArg Prod.fst hseek)).symm

theorem reckons (h : s.position.toNat = place + b.ahead.length) (hle : s.position ≤ s.length) :
    b.Reckons place s := by
  constructor
  case position_iff =>
    have hword := toInt_ofNat_add_eq_iff place 0
    rw [Int64.add_zero, Int64.toInt_zero, Int.add_zero] at hword
    rw [position_eq_ofNat h, hword]
    omega
  case target_iff =>
    intro offset origin base hbase
    refine ⟨Int64.ofNat base + offset, ?_, toInt_ofNat_add_eq_iff base offset⟩
    rw [target?_eq h, hbase]
    rfl
  case seek =>
    intro hL W src w offset origin input x q hseek
    have hplace := UInt64.le_iff_toNat_le.1 hle
    exact landing_of_seek h (by omega) hL hseek

end StreamBuffer

/-! ## Every place -/

namespace Stream

variable {W R : Type} [Journaled W]

/-- **Reckoning is exact below 2^63.**  For every source, every declared length and every place up
to the declared end that a run leads to before the end was met. -/
theorem reckons_run (src : Source W R) (w : W) (block length : UInt64) (ops : List Op)
    {p : Stream (Numbered R) × Observed W}
    (hp : p = run src.observed ops (start block length, { inner := w }))
    (hopen : p.1.closed = false) (hended : p.1.ended = false) (hle : p.1.position ≤ length) :
    p.1.length = length ∧ (∀ op, (step src.observed op p).Reckons) ∧
      ∀ (b : StreamBuffer) (place : Nat), p.1.position.toNat = place + b.ahead.length →
        b.Reckons place p.1 := by
  have hlength : p.1.Tidy ∧ p.1.length = length := by
    rw [hp]
    refine run_keeps (I := fun q => q.1.Tidy ∧ q.1.length = length) (fun op q hq => ?_)
      ⟨fun _ => rfl, rfl⟩ ops
    obtain ⟨htidy, hsame⟩ := step_tidy src.observed op hq.1
    exact ⟨htidy, hsame.trans hq.2⟩
  have hplace : p.1.position ≤ p.1.length := by rwa [hlength.2]
  exact ⟨hlength.2, fun op => reckons_step src op hopen hended hplace,
    fun b place hb => StreamBuffer.reckons hb hplace⟩

/-- One byte is read of a length of 2^63 + 1, and 2^63 are left, one too many. -/
theorem reckons_run_pairs :
    ∃ p, p = run (pairs.source (W := Site)).observed [.readByte]
        (start 1 9223372036854775809, { inner := {} }) ∧
      p.1.closed = false ∧ p.1.ended = false ∧ p.1.position ≤ 9223372036854775809 ∧
      p.1.position = 1 ∧ p.1.distance = signedLimit ∧
      (∀ op, (step pairs.source.observed op p).Reckons) ∧
      (step pairs.source.observed .remaining p).outcome.result =
        .ok (.amount (-9223372036854775808)) ∧
      ∀ (b : StreamBuffer) (place : Nat), p.1.position.toNat = place + b.ahead.length →
        b.Reckons place p.1 := by
  have hposition : (run (pairs.source (W := Site)).observed [.readByte]
      (start 1 9223372036854775809, { inner := {} })).1.position = 1 := by cbv
  obtain ⟨-, hsteps, hbuffers⟩ := reckons_run pairs.source ({} : Site) 1 9223372036854775809
    [.readByte] rfl rfl rfl (by rw [hposition]; decide)
  refine ⟨_, rfl, rfl, rfl, ?_, hposition, ?_, hsteps, ?_, hbuffers⟩
  · rw [hposition]
    decide
  · rw [distance, hposition]
    rfl
  · cbv

/-- At the start of a length of 2^63, what is left is told to be below zero.  Passing over one byte
is told to have gone back by 2^63, and leads to the end.  At the place 5 of a length of 7, a move by
the largest offset is reckoned to lead to a place below zero. -/
theorem reckoned_below_zero :
    ∃ p : Stream (Numbered ScriptedReader) × Observed Site,
      p = (start 1 9223372036854775808, { inner := {} }) ∧
      (step pairs.source.observed .remaining p).outcome.result =
        .ok (.amount (-9223372036854775808)) ∧
      (step pairs.source.observed (.skip 1) p).outcome.result =
        .ok (.amount (-9223372036854775808)) ∧
      (step pairs.source.observed (.skip 1) p).after.1.position = 9223372036854775808 ∧
      (-9223372036854775808 : Int64).toInt ≠ min 1 (9223372036854775808 : Int) ∧
      (StreamBuffer.ofSize 8).target? { start (R := ScriptedReader) 1 7 with position := 5 }
        9223372036854775807 .here = some (-9223372036854775804) := by
  refine ⟨_, rfl, ?_, ?_, ?_, by decide, rfl⟩
  all_goals cbv

end Stream

end BlockAccess
