import BlockAccess.Proofs.Stream.Queries

/-!
# Sources that agree for small offsets

What a client learns from a stream depends on its source only through the readers that are made for
it, and these are made for places up to the declared end.  If two sources make the same readers for
offsets up to a limit and do everything else alike (`Source.AgreeUpTo`), then no query tells streams
over them apart whose declared end is within the limit (`Stands.replies_agree`).
-/

namespace BlockAccess

variable {W R : Type}

/-- Two sources that differ at most in the readers that they make, and not in those for offsets up
to a limit, as long as the surroundings are fair. -/
structure Source.AgreeUpTo (src src' : Source W R) (limit : Nat) (Fair : W → Prop) : Prop where
  others : src' = { src with create := src'.create }
  create : ∀ {w} {offset : UInt64}, Fair w → offset.toNat ≤ limit → ∀ length,
    src.create offset length w = src'.create offset length w

namespace Source

variable [Journaled W] (src : Source W R)
  (create : UInt64 → UInt64 → W → Except Failure R × W)

/-- Pulling makes no readers. -/
theorem pull_with (block : UInt64) (budget : Nat) (r : R) (w : W) :
    ({ src with create } : Source W R).pull block budget r w = src.pull block budget r w := by
  induction budget generalizing r w with
  | zero => rfl
  | succ budget ih =>
    unfold pull
    simp only [ih]

/-- Gathering makes no readers. -/
theorem gather_with (block : UInt64) (wanted budget : Nat) (got : List Bytes) (r : R) (w : W) :
    ({ src with create } : Source W R).gather block wanted budget got r w =
      src.gather block wanted budget got r w := by
  fun_induction src.gather block wanted budget got r w
  all_goals
    conv => lhs; unfold gather
    simp only [*, if_true, if_false]

end Source

namespace Stream

variable [Journaled W] {src src' : Source W R} {limit : Nat} {Fair : W → Prop} {s : Stream R}
  {w : W}

theorem fetch_agree (h : src.AgreeUpTo src' limit Fair) (hs : s.position.toNat ≤ limit)
    (hw : Fair (note (.creatingReader s.block s.position s.rest) w)) (n : UInt64) :
    s.fetch src n w = s.fetch src' n w := by
  obtain ⟨hothers, hcreate⟩ := h
  generalize src'.create = create at hothers hcreate
  subst hothers
  have hreader : s.withReader src w = s.withReader { src with create } w := by
    unfold withReader
    rw [hcreate hw hs]
  have hfill : s.fill src w = s.fill { src with create } w := by
    unfold fill
    rw [hreader]
    simp only [Source.pull_with]
    rfl
  unfold fetch
  rw [hfill]
  rfl

theorem readSome_agree (h : src.AgreeUpTo src' limit Fair) (hs : s.position.toNat ≤ limit)
    (hw : Fair (note (.creatingReader s.block s.position s.rest) w)) (n : UInt64) :
    s.readSome src n w = s.readSome src' n w := by
  unfold readSome
  rw [fetch_agree h hs hw]

/-- A positioned read makes a reader for its target and for no other place. -/
theorem readAt_agree_of_le (h : src.AgreeUpTo src' limit Fair) (hw : Fair w) {target : Int64}
    (hs : target.toUInt64.toNat ≤ limit) (count : UInt64) :
    s.readAt src target count w = s.readAt src' target count w := by
  obtain ⟨hothers, hcreate⟩ := h
  generalize src'.create = create at hothers hcreate
  subst hothers
  unfold readAt
  rw [hcreate hw hs]
  simp only [Source.gather_with]

theorem readAt_agree (h : src.AgreeUpTo src' limit Fair) (hw : Fair w)
    (hs : s.length.toNat ≤ limit) (target : Int64) (count : UInt64) :
    s.readAt src target count w = s.readAt src' target count w := by
  by_cases hpast : (target < 0 || s.length ≤ target.toUInt64) = true
  · unfold readAt
    simp only [hpast, if_true]
  · refine readAt_agree_of_le h hw ?_ count
    simp only [Bool.or_eq_true, decide_eq_true_eq, not_or] at hpast
    rw [UInt64.le_iff_toNat_le] at hpast
    omega

omit [Journaled W] in
/-- Moving makes no readers. -/
theorem seek_agree (h : src.AgreeUpTo src' limit Fair) (target : Int64) :
    s.seek src target w = s.seek src' target w := by
  rw [h.others]
  rfl

omit [Journaled W] in
theorem skip_agree (h : src.AgreeUpTo src' limit Fair) (n : Int64) :
    s.skip src n w = s.skip src' n w := by
  rw [h.others]
  rfl

/-! ## Queries -/

variable {S : Bytes} {id length : UInt64} {c : src'.Conforming S} {k : Cursor} {p : Stream R × W}

theorem Stands.readSome_agree (h : src.AgreeUpTo src' limit c.Fair) (hs : Stands c id length k p)
    (hlength : length.toNat ≤ limit) (n : UInt64) :
    p.1.readSome src n p.2 = p.1.readSome src' n p.2 := by
  have hposition : p.1.position.toNat ≤ limit := Nat.le_trans hs.position_le hlength
  exact Stream.readSome_agree h hposition (c.fair_note _ hs.fair) n

theorem Stands.fillWindow_agree (h : src.AgreeUpTo src' limit c.Fair) {k : Cursor}
    {p : Stream R × W} (hs : Stands c id length k p) (hlength : length.toNat ≤ limit)
    (memory : Option Destination) (offset count : UInt64) :
    Stream.fillWindow src memory offset count p.1 p.2 =
      Stream.fillWindow src' memory offset count p.1 p.2 := by
  have hread : p.1.readInto src memory offset count p.2 =
      p.1.readInto src' memory offset count p.2 := by
    unfold Stream.readInto
    rw [hs.readSome_agree h hlength]
  unfold Stream.fillWindow
  by_cases hzero : count = 0
  · rw [if_pos hzero, if_pos hzero]
  rw [if_neg hzero, if_neg hzero, hread]
  cases hwindow : Destination.ofWindow memory offset count with
  | error f =>
    have hrefused : p.1.readInto src' memory offset count p.2 = (.error f, memory, p) := by
      unfold Stream.readInto
      rw [hs.destination?_eq, hwindow]
    rw [hrefused]
  | ok d =>
    obtain ⟨rfl, hd⟩ := Destination.ofWindow_eq_ok hwindow
    obtain ⟨b, k', s', w', hr, -, hafter⟩ := hs.readInto hd
    rw [hr]
    cases b with
    | none => rfl
    | some b =>
      dsimp only [Option.map_some]
      by_cases hgoes : 0 < b.length ∧ b.length < count.toNat
      · rw [if_pos hgoes, if_pos hgoes, hafter.fillWindow_agree h hlength]
      · rw [if_neg hgoes, if_neg hgoes]
termination_by count.toNat
decreasing_by
  rw [Offset.toNat_sub_ofNat (Nat.le_of_lt hgoes.2)]
  exact Nat.sub_lt (Nat.lt_trans hgoes.1 hgoes.2) hgoes.1

/-- A query does not tell the two sources apart. -/
theorem Stands.ask_agree (h : src.AgreeUpTo src' limit c.Fair) (hs : Stands c id length k p)
    (hlength : length.toNat ≤ limit) (q : Query) : Stream.ask src q p = Stream.ask src' q p := by
  cases q with
  | byte =>
    simp only [Stream.ask, perform, readByte, hs.readSome_agree h hlength]
  | fill memory offset count =>
    simp only [Stream.ask, hs.fillWindow_agree h hlength]
  | readAt target memory offset count =>
    have hle : p.1.length.toNat ≤ limit := hs.length_eq ▸ hlength
    simp only [Stream.ask, perform, readAtInto, readAt_agree h hs.fair hle]
  | remaining | position => rfl
  | seek target => simp only [Stream.ask, perform, seek_agree h]
  | skip n => simp only [Stream.ask, perform, skip_agree h]

/-- **No queries tell apart** two sources that make the same readers for all places of the block, if
one of them delivers it. -/
theorem Stands.replies_agree (h : src.AgreeUpTo src' limit c.Fair) (hs : Stands c id length k p)
    (hlength : length.toNat ≤ limit) (hL : length.toNat < Offset.signedLimit) (hc : c.Detached)
    (qs : List Query) : Stream.replies src qs p = Stream.replies src' qs p := by
  induction qs generalizing k p with
  | nil => rfl
  | cons q qs ih =>
    rw [Stream.replies, Stream.replies, hs.ask_agree h hlength q, ih (hs.ask hL hc q).2]

end Stream

end BlockAccess
