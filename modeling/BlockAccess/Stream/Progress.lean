import BlockAccess.Stream

/-!
# Reading to the end comes to an end

If a source keeps a supply, a read that gives bytes takes them out of what its reader and the
current packet hold together.  So a loop that reads until the stream ends or fails is finite, and
this is the measure that says so: `Stream.weight`, once there is a reader.
-/

namespace BlockAccess

variable {W R : Type}

namespace Stream

/-- The bytes that the reader and the current packet of a stream still have. -/
def weight {src : Source W R} (sup : src.Supply) (s : Stream R) : Nat :=
  (s.reader.map sup.left).getD 0 + (s.packet.map Packet.readable).getD 0

end Stream

variable [Journaled W]

/-- What is pulled comes out of the supply, and has bytes in it. -/
theorem Source.left_pull {src : Source W R} (sup : src.Supply) {block : UInt64} {budget : Nat}
    {r r' : R} {w w' : W} {p : Packet}
    (h : src.pull block budget r w = (.ok (some p), r', w')) :
    sup.left r' + p.readable ≤ sup.left r ∧ 0 < p.readable := by
  induction budget generalizing r w with
  | zero => simp [pull] at h
  | succ budget ih =>
    unfold pull at h
    split at h
    · next q r₁ w₁ hq =>
      have hleft := sup.left_next hq
      split at h
      · have := ih h
        omega
      · next hne =>
        simp only [Prod.mk.injEq, Except.ok.injEq, Option.some.injEq] at h
        obtain ⟨rfl, rfl, -⟩ := h
        exact ⟨hleft, List.length_pos_iff.2 fun h => hne (by simp [h])⟩
    · next hnot _ =>
      simp only [Prod.mk.injEq] at h
      exact absurd h.1 (hnot p)

namespace Stream

omit [Journaled W] in
theorem weight_releasePacket {src : Source W R} (sup : src.Supply) (s : Stream R) (w : W) :
    (s.releasePacket src w).1.weight sup ≤ s.weight sup
      ∧ (s.releasePacket src w).1.reader = s.reader
      ∧ (s.releasePacket src w).1.packet = none := by
  unfold releasePacket
  split
  · next h => exact ⟨Nat.le_refl _, rfl, h⟩
  · exact ⟨by simp [weight], rfl, rfl⟩

/-- Filling a stream that has a reader adds nothing to it. -/
theorem weight_fill {src : Source W R} (sup : src.Supply) {s s' : Stream R} {w w' : W} {p : Packet}
    (h : s.fill src w = (.ok (), s', w')) (hp : s'.packet = some p) :
    s'.reader.isSome ∧ 0 < p.readable ∧ (s.reader.isSome → s'.weight sup ≤ s.weight sup) := by
  unfold fill at h
  split at h
  · simp at h
  next r s₁ w₁ hr =>
  have hreader : s₁.reader = some r ∧ s₁.packet = s.packet ∧ (s.reader.isSome → s₁ = s) := by
    unfold withReader at hr
    split at hr
    · next r₀ h₀ =>
      simp only [Prod.mk.injEq, Except.ok.injEq] at hr
      obtain ⟨rfl, rfl, -⟩ := hr
      exact ⟨h₀, rfl, fun _ => rfl⟩
    · next h₀ =>
      split at hr
      · simp at hr
      · simp only [Prod.mk.injEq, Except.ok.injEq] at hr
        obtain ⟨rfl, rfl, -⟩ := hr
        exact ⟨rfl, rfl, fun h => by simp [h₀] at h⟩
  split at h
  · next hany =>
    simp only [Prod.mk.injEq, true_and] at h
    obtain ⟨rfl, -⟩ := h
    refine ⟨by simp [hreader.1], ?_, fun hs => Nat.le_of_eq (by rw [hreader.2.2 hs])⟩
    rw [hp] at hany
    cases hu : p.unread with
    | nil => simp [hu] at hany
    | cons c rest => simp [Packet.readable, hu]
  · have hrel := weight_releasePacket sup s₁ w₁
    split at h
    next s₂ w₂ hs₂ =>
    rw [hs₂] at hrel
    split at h
    · simp at h
    next q r' w₃ hpull =>
    simp only [Prod.mk.injEq, true_and] at h
    obtain ⟨rfl, -⟩ := h
    subst hp
    have hleft := Source.left_pull sup hpull
    refine ⟨rfl, hleft.2, fun hs => ?_⟩
    have hs₁ := hreader.2.2 hs
    subst hs₁
    simp only [weight, Option.map_some, Option.getD_some, hreader.1]
    omega

/-- A read of a stream that gives bytes takes at least one out of what the stream has. -/
theorem weight_fetch {src : Source W R} (sup : src.Supply) {n : UInt64} (hn : 0 < n)
    {s s' : Stream R} {w w' : W} {b : Bytes}
    (h : s.fetch src n w = (.ok (some b), s', w')) :
    s'.reader.isSome ∧ (s.reader.isSome → s'.weight sup < s.weight sup) := by
  unfold fetch at h
  split at h
  · simp at h
  next s₁ w₁ hfill =>
  split at h
  · split at h <;> simp at h
  next p hp =>
  have hpacket : s₁.packet = some p := by
    split at hp
    · simp at hp
    · exact hp
  have hw := weight_fill sup hfill hpacket
  rw [Packet.take_portion] at h
  simp only [Prod.mk.injEq, Except.ok.injEq, Option.some.injEq] at h
  obtain ⟨-, rfl, -⟩ := h
  refine ⟨hw.1, fun hs => Nat.lt_of_lt_of_le ?_ (hw.2.2 hs)⟩
  have hpos : 0 < n.toNat := UInt64.lt_iff_toNat_lt.1 hn
  have hreadable := hw.2.1
  simp only [weight, hpacket, Option.map_some, Option.getD_some, Packet.readable,
    List.length_drop] at hreadable ⊢
  omega

end Stream

end BlockAccess
