import BlockAccess.Site
import BlockAccess.Source.Scripted
import BlockAccess.Stream
import BlockAccess.Worker

/-!
# Sources that deliver a block

A source conforms to a block if every reader hands out the bytes of its range, as far as the block
has them, and nothing fails.  How the bytes are cut into packets is up to the source.  Packets may
be empty, but `emptyPacketLimit` of them do not come in a row.

`Source.Conforming` says so by what a reader owes: some bytes, after a number of empty packets in a
row.  A packet that is handed out is the front of what is owed, and there is no packet only if
nothing is owed.  A source may depend on its surroundings, and it may begin to conform late, so what
a reader owes is said in surroundings, and readers are made in surroundings in which the source is
`Fair`.

`SourceScript.conforming` is the instance for scripted sources.
-/

namespace BlockAccess

/-- A source that delivers a block, wherever it is fair. -/
structure Source.Conforming {W R : Type} [Journaled W] (src : Source W R) (block : Bytes) where
  /-- The surroundings in which readers conform. -/
  Fair : W → Prop
  /-- A reader has these bytes to hand out, and handed out so many empty packets in a row. -/
  Owes : R → W → Bytes → Nat → Prop
  fair_note : ∀ {w} (n : Notice), Fair w → Fair (note n w)
  fair_release : ∀ {w} (p : Packet), Fair w → Fair (src.release p w)
  owes_note : ∀ {r w b e} (n : Notice), Owes r w b e → Owes r (note n w) b e
  owes_release : ∀ {r w b e} (p : Packet), Owes r w b e → Owes r (src.release p w) b e
  /-- A reader owes the bytes of its range. -/
  create : ∀ {w} (offset length : UInt64), Fair w → ∃ r w',
    src.create offset length w = (.ok r, w') ∧ Fair w' ∧ Owes r w' (range block offset length) 0
  /-- What is handed out is the front of what is owed; at the end nothing is. -/
  next : ∀ {r w b e}, Fair w → Owes r w b e →
    (∃ r' w', src.next r w = (.ok none, r', w') ∧ Fair w' ∧ b = [] ∧ Owes r' w' [] e) ∨
    ∃ p r' w' rest, src.next r w = (.ok (some p), r', w') ∧ Fair w' ∧ b = p.unread ++ rest ∧
      (p.unread ≠ [] ∧ Owes r' w' rest 0 ∨
        p.unread = [] ∧ Owes r' w' rest (e + 1) ∧ e + 1 < emptyPacketLimit)
  close : ∀ {r w b e}, Fair w → Owes r w b e → ∃ r' w', src.close r w = (.ok (), r', w') ∧ Fair w'

namespace Source.Conforming

variable {W R : Type} [Journaled W] {src : Source W R} {S : Bytes}

/-- The budget for empty packets is enough, so pulling gives the next packet with bytes in it, or
none if nothing is owed. -/
theorem pull (c : src.Conforming S) (block : UInt64) {budget : Nat} {r : R} {w : W} {b : Bytes}
    {e : Nat} (hpos : 0 < budget) (hbudget : emptyPacketLimit ≤ budget + e) (hw : c.Fair w)
    (h : c.Owes r w b e) :
    (∃ r' w', src.pull block budget r w = (.ok none, r', w') ∧ c.Fair w' ∧ b = [] ∧
      ∃ e', c.Owes r' w' [] e') ∨
    ∃ p r' w' rest, src.pull block budget r w = (.ok (some p), r', w') ∧ c.Fair w' ∧
      b = p.unread ++ rest ∧ p.unread ≠ [] ∧ c.Owes r' w' rest 0 := by
  induction budget generalizing r w b e with
  | zero => exact absurd hpos (Nat.lt_irrefl 0)
  | succ budget ih =>
    unfold Source.pull
    rcases c.next hw h with ⟨r', w', hn, hw', rfl, ho⟩ |
      ⟨p, r', w', rest, hn, hw', rfl, ⟨hne, ho⟩ | ⟨hnil, ho, he⟩⟩
    · rw [hn]
      exact .inl ⟨r', w', rfl, hw', rfl, e, ho⟩
    · have hfull : p.unread.isEmpty = false := by simpa using hne
      simp only [hn, hfull, Bool.false_eq_true, if_false]
      exact .inr ⟨p, r', w', rest, rfl, hw', rfl, hne, ho⟩
    · -- an empty packet uses up one of the budget and comes one nearer to the limit
      simp only [hn, hnil, List.isEmpty_nil, if_true, List.nil_append]
      exact ih (by omega) (by omega) (c.fair_release p (c.fair_note _ hw'))
        (c.owes_release p (c.owes_note _ ho))

end Source.Conforming

/-! ## Scripted sources -/

namespace ReaderScript

/-- The size of a packet of the script. -/
def sizeAt (s : ReaderScript) (i : Nat) : Nat :=
  (forCall? s.sizes i).getD ScriptedReader.defaultSize

/-- A script of a reader that delivers its range: nothing fails, it goes from the start of the range
to its end, and among as many sizes in a row as the limit says one is not zero. -/
structure Steady (s : ReaderScript) : Prop where
  bounded : s.unbounded = false
  failAt : s.failAt = none
  endAt : s.endAt = none
  closeFails : s.closeFails = false
  sizes : ∀ i, ∃ j, j < emptyPacketLimit ∧ s.sizeAt (i + j) ≠ 0

theorem steady_default : ({} : ReaderScript).Steady := by
  refine ⟨rfl, rfl, rfl, rfl, fun i => ⟨0, by decide, ?_⟩⟩
  simp [sizeAt, forCall?, ScriptedReader.defaultSize]

end ReaderScript

/-- A reader with a steady script, so many bytes before its end and so many empty packets after the
last bytes that it handed out. -/
structure ScriptedReader.Owing (r : ScriptedReader) (b : Bytes) (e : Nat) : Prop where
  steady : r.script.Steady
  rest : r.rest = b
  exhausted : r.exhausted = true → b = []
  empties : e ≤ r.index
  zeros : ∀ j, j < e → r.script.sizeAt (r.index - e + j) = 0

namespace ScriptedReader.Owing

variable {W : Type} {r : ScriptedReader} {b : Bytes} {e : Nat}

/-- One empty packet more is still below the limit. -/
theorem succ_lt (h : r.Owing b e) (hzero : r.script.sizeAt r.index = 0) :
    e + 1 < emptyPacketLimit := by
  obtain ⟨j, hj, hne⟩ := h.steady.sizes (r.index - e)
  have he := h.empties
  by_cases hlt : j < e
  · exact absurd (h.zeros j hlt) hne
  by_cases heq : j = e
  · rw [heq, Nat.sub_add_cancel he] at hne
    exact absurd hzero hne
  · omega

theorem next_ended (h : r.Owing [] e) (w : W) :
    ∃ r', r.next w = (.ok none, r', w) ∧ r'.Owing [] e := by
  unfold ScriptedReader.next
  split
  · exact ⟨r, rfl, h⟩
  · rw [if_neg (by simp [h.steady.failAt]), if_pos (by simp [h.rest])]
    exact ⟨_, rfl, h.steady, h.rest, fun _ => rfl, h.empties, h.zeros⟩

theorem next_packet (h : r.Owing b e) (hb : b ≠ []) (w : W) :
    ∃ r', r.next w = (.ok (some (Packet.ofBytes (b.take (r.script.sizeAt r.index)))), r', w) ∧
      r'.script = r.script ∧ r'.index = r.index + 1 ∧ r'.exhausted = r.exhausted ∧
      r'.rest = b.drop (r.script.sizeAt r.index) := by
  have hopen : r.exhausted = false := by
    by_cases hex : r.exhausted = true
    · exact absurd (h.exhausted hex) hb
    · simpa using hex
  have hrest := h.rest
  subst hrest
  have hgoes : ¬(r.rest.isEmpty || r.script.endAt.any (· ≤ r.index)) = true := by
    simpa [h.steady.endAt] using hb
  unfold ScriptedReader.next
  rw [if_neg (by simp [hopen]), if_neg (by simp [h.steady.failAt]), if_neg hgoes]
  exact ⟨_, rfl, rfl, rfl, rfl, rfl⟩

/-- A packet of no size is empty, and what was owed still is. -/
theorem of_zero {r' : ScriptedReader} (h : r.Owing b e) (hb : b ≠ [])
    (hzero : r.script.sizeAt r.index = 0) (hscript : r'.script = r.script)
    (hindex : r'.index = r.index + 1) (hexhausted : r'.exhausted = r.exhausted)
    (hrest : r'.rest = b) : r'.Owing b (e + 1) where
  steady := hscript ▸ h.steady
  rest := hrest
  exhausted hex := absurd (h.exhausted (hexhausted ▸ hex)) hb
  empties := by
    have := h.empties
    omega
  zeros j hj := by
    rw [hscript, hindex, Nat.add_sub_add_right]
    rcases Nat.lt_succ_iff_lt_or_eq.1 hj with hlt | rfl
    · exact h.zeros j hlt
    · rwa [Nat.sub_add_cancel h.empties]

end ScriptedReader.Owing

theorem SourceScript.create_eq (s : SourceScript) {w : Site} (hw : w.calls ∉ s.failingCreates)
    (hbounded : ((forCall? s.readers w.calls).getD {}).unbounded = false)
    (offset length : UInt64) :
    s.create offset length w =
      (.ok
        { script := (forCall? s.readers w.calls).getD {}
          offset := min offset.toNat s.block.length
          rest := range s.block offset length },
        { w with calls := w.calls + 1 }) := by
  simp only [create, Counting.count]
  rw [if_neg (by simpa using hw)]
  simp only [hbounded, Bool.false_eq_true, if_false]
  rfl

namespace SourceScript

variable {s : SourceScript} {w : Site} {r : ScriptedReader} {b : Bytes} {e : Nat}

theorem create_steady (hcreates : w.calls ∉ s.failingCreates)
    (hsteady : ((forCall? s.readers w.calls).getD {}).Steady) (offset length : UInt64) :
    ∃ r, s.create offset length w = (.ok r, { w with calls := w.calls + 1 }) ∧
      r.Owing (range s.block offset length) 0 := by
  refine ⟨_, s.create_eq hcreates hsteady.bounded offset length, ?_⟩
  exact
    { steady := hsteady
      rest := rfl
      exhausted := fun hex => by simp at hex
      empties := Nat.zero_le _
      zeros := fun j hj => absurd hj (Nat.not_lt_zero j) }

/-- A steady reader hands out the front of what it owes, or an empty packet below the limit, or it
is at the end of what it owes. -/
theorem next_steady (h : r.Owing b e) (w : Site) :
    (∃ r', r.next w = (.ok none, r', w) ∧ b = [] ∧ r'.Owing [] e) ∨
    ∃ p r' rest, r.next w = (.ok (some p), r', w) ∧ b = p.unread ++ rest ∧
      (p.unread ≠ [] ∧ r'.Owing rest 0 ∨
        p.unread = [] ∧ r'.Owing rest (e + 1) ∧ e + 1 < emptyPacketLimit) := by
  by_cases hb : b = []
  · subst hb
    obtain ⟨r', hn, ho⟩ := h.next_ended w
    exact .inl ⟨r', hn, rfl, ho⟩
  obtain ⟨r', hn, hscript, hindex, hexhausted, hrest⟩ := h.next_packet hb w
  refine .inr ⟨_, r', _, hn, (List.take_append_drop _ b).symm, ?_⟩
  by_cases hzero : r.script.sizeAt r.index = 0
  · rw [hzero] at hrest ⊢
    exact .inr ⟨rfl, h.of_zero hb hzero hscript hindex hexhausted hrest, h.succ_lt hzero⟩
  · refine .inl ⟨?_, ?_⟩
    · have hlength : 0 < b.length := List.length_pos_iff.2 hb
      exact List.length_pos_iff.1 (by rw [Packet.ofBytes, List.length_take]; omega)
    · exact
        { steady := hscript ▸ h.steady
          rest := hrest
          exhausted := fun hex => absurd (h.exhausted (hexhausted ▸ hex)) hb
          empties := Nat.zero_le _
          zeros := fun j hj => absurd hj (Nat.not_lt_zero j) }

theorem close_steady (h : r.Owing b e) (w : Site) : r.close w = (.ok (), r, w) := by
  rw [ScriptedReader.close, if_neg (by simp [h.steady.closeFails])]

/-- A scripted source delivers its block from call number `m` on, if no call for a reader fails from
there on and all those scripts are steady. -/
def conforming (s : SourceScript) (m : Nat)
    (hs : ∀ n, m ≤ n → n ∉ s.failingCreates ∧ ((forCall? s.readers n).getD {}).Steady) :
    (s.source (W := Site)).Conforming s.block where
  Fair w := m ≤ w.calls
  Owes r _ b e := r.Owing b e
  fair_note _ h := h
  fair_release _ h := h
  owes_note _ h := h
  owes_release _ h := h
  create {w} offset length hw := by
    obtain ⟨r, hc, ho⟩ := create_steady (hs w.calls hw).1 (hs w.calls hw).2 offset length
    exact ⟨r, _, hc, Nat.le_succ_of_le hw, ho⟩
  next {r w b e} hw h := by
    rcases next_steady h w with ⟨r', hn, hb, ho⟩ | ⟨p, r', rest, hn, hb, ho⟩
    · exact .inl ⟨r', w, hn, hw, hb, ho⟩
    · exact .inr ⟨p, r', w, rest, hn, hw, hb, ho⟩
  close {r w b e} hw h := ⟨r, w, close_steady h w, hw⟩

end SourceScript

end BlockAccess
