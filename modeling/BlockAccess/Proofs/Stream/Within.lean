import BlockAccess.Proofs.Stream.Moves

/-!
# Places within the declared length

A stream that is `Within` its length has its position between the start and the declared end.  If
the length is below 2^63, then what such a stream says is left is what is in front of the end, as a
number and not only as a word, and passing over bytes keeps it within the length.
-/

namespace BlockAccess
namespace Stream

open Offset

variable {R : Type}

/-- A stream of a declared length that is at a place within it. -/
structure Within (length : UInt64) (s : Stream R) : Prop where
  tidy : s.Tidy
  length_eq : s.length = length
  position_le : s.position.toNat ≤ length.toNat

section

variable {length : UInt64} {s : Stream R}

theorem Within.toNat_rest (hs : s.Within length) :
    s.rest.toNat = length.toNat - s.position.toNat := by
  rw [rest, hs.length_eq]
  exact toNat_sub (UInt64.le_iff_toNat_le.2 hs.position_le)

theorem Within.toInt_rest (hs : s.Within length) (hL : length.toNat < signedLimit) :
    s.rest.toInt64.toInt = length.toNat - s.position.toNat := by
  have hrest := hs.toNat_rest
  have hle := hs.position_le
  rw [toInt_toInt64 (by omega), hrest]
  omega

theorem remaining_cases {left : Int64} (h : s.remaining = .ok left) :
    s.closed = false ∧ left = if s.ended then 0 else s.rest.toInt64 := by
  unfold remaining at h
  split at h
  · simp at h
  · next hopen => exact ⟨by simpa using hopen, (Except.ok.inj h).symm⟩

/-- What is left is between nothing and what is in front of the declared end. -/
theorem Within.remaining (hs : s.Within length) (hL : length.toNat < signedLimit) {left : Int64}
    (h : s.remaining = .ok left) :
    0 ≤ left.toInt ∧ left.toInt ≤ length.toNat - s.position.toNat := by
  have hle := hs.position_le
  obtain ⟨-, rfl⟩ := remaining_cases h
  split
  · rw [Int64.toInt_zero]
    omega
  · rw [hs.toInt_rest hL]
    omega

/-- What is passed over is not below zero, and no more than what is left. -/
theorem Within.passed (hs : s.Within length) (hL : length.toNat < signedLimit) {left n : Int64}
    (h : s.remaining = .ok left) (hn : 0 < n.toInt) :
    0 ≤ (min left n).toInt ∧
      s.position.toNat + (min left n).toUInt64.toNat ≤ length.toNat ∧
      (s.position + (min left n).toUInt64).toNat =
        s.position.toNat + (min left n).toUInt64.toNat := by
  have hle := hs.position_le
  obtain ⟨hleft, hupper⟩ := hs.remaining hL h
  have hmin := toInt_min left n
  have hpos : 0 ≤ (min left n).toInt := by omega
  have hnat := toNat_toUInt64 hpos
  have hsum : s.position.toNat + (min left n).toUInt64.toNat ≤ length.toNat := by omega
  have hlimit := length.toNat_lt
  exact ⟨hpos, hsum, toNat_add (by simp only [UInt64.size]; omega)⟩

end

/-- Passing over bytes goes on by what is passed over, or leaves the stream where it is. -/
theorem Within.step_skip {W : Type} [Journaled W] {length : UInt64}
    (hL : length.toNat < signedLimit) (src : Source W R) {n : Int64} {p : Stream R × W}
    (hp : p.1.Within length) :
    p.1.position ≤ (step src (.skip n) p).after.1.position ∧
      (step src (.skip n) p).after.1.position.toNat ≤ length.toNat ∧
      ∀ k, (step src (.skip n) p).outcome.result = .ok (.amount k) → 0 ≤ k.toInt := by
  rcases h : p.1.skip src n p.2 with ⟨x, s', w'⟩
  have hresult (k : Int64) (hk : x.map Answer.amount = .ok (.amount k)) : x = .ok k := by
    cases x with
    | error f => simp [Except.map] at hk
    | ok j => simpa [Except.map] using hk
  simp only [step, perform, h]
  rcases skip_cases h with ⟨rfl, hzero⟩ | ⟨left, hleft, hn, hk, rfl⟩
  · refine ⟨UInt64.le_refl _, hp.position_le, fun k hx => ?_⟩
    exact Int.le_of_eq (by rw [hzero k (hresult k hx), Int64.toInt_zero])
  · obtain ⟨hpos, hle, hsum⟩ := hp.passed hL hleft hn
    dsimp only
    rw [UInt64.le_iff_toNat_le, hsum]
    refine ⟨Nat.le_add_right .., hle, fun k hx => ?_⟩
    rw [hk k (hresult k hx)]
    exact hpos

theorem within_start {block length : UInt64} : (start (R := R) block length).Within length :=
  ⟨fun _ => rfl, rfl, Nat.zero_le _⟩

end Stream
end BlockAccess
