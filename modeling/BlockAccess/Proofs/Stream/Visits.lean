import BlockAccess.Proofs.Stream.Cursor

/-!
# Reads at a position give the range

Over a source that delivers the block, a positioned read within the declared length obtains the
bytes of its range, as far as the block has them, and does not fail.  It goes by what its reader
owes: that is no more than what is still wanted, so no packet is too large, and it is all together
when the reader is at its end.
-/

namespace BlockAccess

theorem Packet.take_readable {p : Packet} (h : p.readable < UInt64.size) :
    p.take (UInt64.ofNat p.readable) = (.ok p.unread, { p with unread := [] }) := by
  have hn : (UInt64.ofNat p.readable).toNat = p.unread.length := UInt64.toNat_ofNat_of_lt' h
  rw [take_of_le (Nat.le_of_eq hn), hn, List.take_length, List.drop_length]

namespace Source.Conforming

variable {W R : Type} [Journaled W] {src : Source W R} {S : Bytes}

/-- Gathering obtains what is owed, if that is no more than what is wanted.  The budget for empty
packets is enough. -/
theorem gather (c : src.Conforming S) (block : UInt64) {wanted budget : Nat} (got : List Bytes)
    {r : R} {w : W} {b : Bytes} {e : Nat} (hwanted : b.length ≤ wanted)
    (hsize : wanted < UInt64.size) (hpos : 0 < budget) (hbudget : emptyPacketLimit ≤ budget + e)
    (hw : c.Fair w) (h : c.Owes r w b e) :
    ∃ got' r' w' b' e', src.gather block wanted budget got r w = (.ok (), got', r', w') ∧
      got'.reverse.flatten = got.reverse.flatten ++ b ∧ c.Fair w' ∧ c.Owes r' w' b' e' := by
  unfold Source.gather
  by_cases hzero : wanted = 0
  · have hnil : b = [] := List.length_eq_zero_iff.1 (by omega)
    rw [if_pos hzero, hnil, List.append_nil]
    exact ⟨got, r, w, b, e, rfl, rfl, hw, h⟩
  rw [if_neg hzero]
  cases budget with
  | zero => exact absurd hpos (Nat.lt_irrefl 0)
  | succ budget =>
    dsimp only
    rcases c.next hw h with ⟨r', w', hn, hw', rfl, ho⟩ |
      ⟨p, r', w', rest, hn, hw', rfl, ⟨hne, ho⟩ | ⟨hnil, ho, he⟩⟩
    · rw [hn, List.append_nil]
      exact ⟨got, r', w', [], e, rfl, rfl, hw', ho⟩
    · -- a packet with bytes in it is no larger than what is wanted, and the budget is full again
      rw [List.length_append] at hwanted
      have hreadable : p.readable = p.unread.length := rfl
      have hlength : 0 < p.unread.length := List.length_pos_iff.2 hne
      have htake := p.take_readable (by omega)
      rw [hn]
      simp only [htake]
      rw [if_neg (by omega), if_neg (by omega)]
      have hless : rest.length ≤ wanted - p.readable := by omega
      obtain ⟨got', r'', w'', b', e', hgather, hbytes, hrest⟩ :=
        c.gather block (p.unread :: got) hless (by omega) (by decide) (Nat.le_refl _)
          (c.fair_release { p with unread := [] } hw') (c.owes_release _ ho)
      refine ⟨got', r'', w'', b', e', hgather, ?_, hrest⟩
      rw [hbytes, List.reverse_cons, List.flatten_append, List.flatten_singleton,
        List.append_assoc]
    · -- an empty packet uses up one of the budget and comes one nearer to the limit
      have hreadable : p.readable = 0 := by rw [Packet.readable, hnil, List.length_nil]
      rw [hnil, List.nil_append] at hwanted ⊢
      rw [hn]
      simp only [hreadable, if_true]
      exact c.gather block got hwanted hsize (by omega) (by omega)
        (c.fair_release p (c.fair_note _ hw')) (c.owes_release p (c.owes_note _ ho))
termination_by (wanted, budget)

end Source.Conforming

namespace Stream

variable {W R : Type} [Journaled W] {src : Source W R} {S : Bytes} {s : Stream R} {w : W}

/-- **A positioned read gives the range.**  The bytes from a place within the declared length are
obtained, as many as were asked for and the block has. -/
theorem readAt_of_lt (c : src.Conforming S) (hopen : s.closed = false) (hw : c.Fair w)
    {target : Int64} {count : UInt64} (hcount : count ≠ 0)
    (hwithin : ¬(target < 0 || s.length ≤ target.toUInt64) = true) :
    ∃ w', s.readAt src target count w =
        (.ok (countOf (range S target.toUInt64 count)), range S target.toUInt64 count, w') ∧
      c.Fair w' := by
  obtain ⟨r, w₁, hcreate, hw₁, ho⟩ := c.create target.toUInt64 count hw
  have hlength : (range S target.toUInt64 count).length ≤ count.toNat := by
    rw [range, List.length_take]
    exact Nat.min_le_left ..
  have hbudget : 0 < emptyPacketLimit := by decide
  obtain ⟨got, r', w₂, b, e, hgather, hbytes, hw₂, ho'⟩ :=
    c.gather s.block [] hlength count.toNat_lt hbudget (Nat.le_refl _) hw₁ ho
  obtain ⟨r'', w', hclose, hw'⟩ := c.close hw₂ ho'
  rw [List.reverse_nil, List.flatten_nil, List.nil_append] at hbytes
  refine ⟨w', ?_, hw'⟩
  unfold readAt
  rw [if_neg (by simp [hopen]), if_neg hcount, if_neg hwithin, hcreate]
  dsimp only
  rw [hgather]
  dsimp only
  rw [hclose, hbytes]

end Stream

end BlockAccess
