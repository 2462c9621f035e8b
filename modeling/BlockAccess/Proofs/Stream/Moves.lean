import BlockAccess.Proofs.Signed
import BlockAccess.Proofs.Stream.Run

/-!
# What a call does to the stream itself

Apart from the surroundings, a call changes few fields of a stream, and which ones is independent of
the source.  `Fetched` lists the four ways in which fetching bytes can end, with the stream that
each of them leaves behind; `seek_cases` and `skip_cases` do the same for the two ways of moving.  A
proof about positions goes by these lists and never opens the functions.  A read at a position
leaves the stream alone, so `ReadAt` lists what it tells and obtains.
-/

namespace BlockAccess
namespace Stream

variable {W R : Type}

/-! ## The current packet and the reader -/

theorem releasePacket_fst (src : Source W R) (s : Stream R) (w : W) :
    (s.releasePacket src w).1 = { s with packet := none } := by
  unfold releasePacket
  split
  · next hp =>
    rw [← hp]
  · rfl

theorem dropReader_snd (src : Source W R) (s : Stream R) (w : W) :
    (s.dropReader src w).2.1 = { s with reader := none, packet := none } := by
  have hs := releasePacket_fst src s w
  unfold dropReader
  split
  next s₁ w₁ hrel =>
  rw [hrel] at hs
  dsimp only at hs
  subst hs
  split
  · next hr =>
    dsimp only at hr ⊢
    rw [hr]
  · split
    rfl

theorem releasePacket_eq (src : Source W R) (s : Stream R) (w : W) :
    s.releasePacket src w = ({ s with packet := none }, (s.releasePacket src w).2) :=
  Prod.ext (releasePacket_fst src s w) rfl

/-- Giving up a stream that has no reader gives back its packet. -/
theorem dropReader_of_none {src : Source W R} {s : Stream R} (h : s.reader = none) (w : W) :
    s.dropReader src w =
      (.ok (), { s with reader := none, packet := none }, (s.releasePacket src w).2) := by
  unfold dropReader
  rw [releasePacket_eq]
  simp only [h]

/-- Giving up a reader ends as closing it does. -/
theorem dropReader_of_some {src : Source W R} {s : Stream R} {r r' : R} {w w' : W}
    {x : Except Failure Unit} (h : s.reader = some r)
    (hclose : src.close r (s.releasePacket src w).2 = (x, r', w')) :
    s.dropReader src w = (x, { s with reader := none, packet := none }, w') := by
  unfold dropReader
  rw [releasePacket_eq]
  simp only [h, hclose]

variable [Journaled W]

/-- A reader that is there is the one that is used. -/
theorem withReader_of_some {src : Source W R} {s : Stream R} {r : R} (h : s.reader = some r)
    (w : W) : s.withReader src w = (.ok r, { s with reader := some r }, w) := by
  unfold withReader
  rw [h]
  dsimp only
  rw [← h]

theorem withReader_snd {src : Source W R} {s s' : Stream R} {w w' : W} {x : Except Failure R}
    (h : s.withReader src w = (x, s', w')) :
    s' = { s with reader := s'.reader } ∧ ∀ r, x = .ok r → s'.reader = some r := by
  unfold withReader at h
  split at h
  · next r hr =>
    simp only [Prod.mk.injEq] at h
    obtain ⟨rfl, rfl, -⟩ := h
    exact ⟨rfl, fun r' hr' => by rw [hr, Except.ok.inj hr']⟩
  · split at h
    · simp only [Prod.mk.injEq] at h
      obtain ⟨rfl, rfl, -⟩ := h
      exact ⟨rfl, fun r' hr' => by simp at hr'⟩
    · simp only [Prod.mk.injEq] at h
      obtain ⟨rfl, rfl, -⟩ := h
      exact ⟨rfl, fun r' hr' => by rw [Except.ok.inj hr']⟩

/-- What is pulled has bytes in it. -/
theorem readable_pull {src : Source W R} {block : UInt64} {budget : Nat} {r r' : R} {w w' : W}
    {p : Packet} (h : src.pull block budget r w = (.ok (some p), r', w')) : 0 < p.readable := by
  induction budget generalizing r w with
  | zero => simp [Source.pull] at h
  | succ budget ih =>
    unfold Source.pull at h
    split at h
    · next q r₁ w₁ hq =>
      split at h
      · exact ih h
      · next hne =>
        simp only [Prod.mk.injEq, Except.ok.injEq, Option.some.injEq] at h
        obtain ⟨rfl, -, -⟩ := h
        exact List.length_pos_iff.2 fun hnil => hne (by rw [hnil]; rfl)
    · next hnot _ =>
      simp only [Prod.mk.injEq] at h
      exact absurd h.1 (hnot p)

/-- A stream without a reader has no packet. -/
def Tidy (s : Stream R) : Prop := s.reader = none → s.packet = none

/-- Filling touches reader and packet only.  A stream that could not be filled has no packet, and
one that could has a reader and, unless that is at its end, a packet with bytes in it. -/
theorem fill_snd {src : Source W R} {s s' : Stream R} {w w' : W} {x : Except Failure Unit}
    (hs : s.Tidy) (h : s.fill src w = (x, s', w')) :
    s' = { s with reader := s'.reader, packet := s'.packet } ∧
      (x = .ok () → s'.reader.isSome ∧ ∀ p, s'.packet = some p → 0 < p.readable) ∧
      ((∃ f, x = .error f) → s'.packet = none) := by
  unfold fill at h
  split at h
  · next f s₁ w₁ hr =>
    simp only [Prod.mk.injEq] at h
    obtain ⟨rfl, rfl, rfl⟩ := h
    unfold withReader at hr
    split at hr
    · simp at hr
    next hnone =>
    split at hr
    · simp only [Prod.mk.injEq] at hr
      obtain ⟨-, rfl, -⟩ := hr
      exact ⟨rfl, fun hx => by simp at hx, fun _ => hs hnone⟩
    · simp at hr
  next r s₁ w₁ hr =>
  obtain ⟨hs₁, hreader⟩ := withReader_snd hr
  split at h
  · next hany =>
    simp only [Prod.mk.injEq] at h
    obtain ⟨rfl, rfl, rfl⟩ := h
    refine ⟨by rw [hs₁], fun _ => ⟨by rw [hreader r rfl]; rfl, fun p hp => ?_⟩,
      fun ⟨f, hf⟩ => by simp at hf⟩
    rw [hp] at hany
    refine List.length_pos_iff.2 fun hnil => ?_
    simp [hnil] at hany
  · have hrel := releasePacket_fst src s₁ w₁
    split at h
    next s₂ w₂ hs₂ =>
    rw [hs₂] at hrel
    dsimp only at hrel
    subst hrel
    split at h
    · next f r' w₃ hpull =>
      simp only [Prod.mk.injEq] at h
      obtain ⟨rfl, rfl, rfl⟩ := h
      rw [hs₁]
      exact ⟨rfl, fun hx => by simp at hx, fun _ => rfl⟩
    · next p r' w₃ hpull =>
      simp only [Prod.mk.injEq] at h
      obtain ⟨rfl, rfl, rfl⟩ := h
      rw [hs₁]
      refine ⟨rfl, fun _ => ⟨rfl, fun q hq => ?_⟩, fun ⟨f, hf⟩ => by simp at hf⟩
      dsimp only at hq
      subst hq
      exact readable_pull hpull

/-! ## Fetching -/

/-- How fetching up to `n` bytes can end, and the stream as it is then. -/
inductive Fetched (s : Stream R) (n : UInt64) : Except Failure (Option Bytes) → Stream R → Prop
  /-- A reader could not be made, or it failed to hand out a packet. -/
  | failed (f : Failure) (r : Option R) :
    Fetched s n (.error f) { s with reader := r, packet := none }
  /-- The end was met, and closing the reader failed. -/
  | endFailed (f : Failure) :
    Fetched s n (.error f) { s with reader := none, packet := none, ended := true }
  | ended : Fetched s n (.ok none) { s with reader := none, packet := none, ended := true }
  | bytes (r : R) (p : Packet) (b : Bytes) (hs : s.ended = false) (hle : b.length ≤ n.toNat)
    (hpos : 0 < n.toNat → 0 < b.length) :
    Fetched s n (.ok (some b))
      { s with reader := some r, packet := some p, position := s.position + UInt64.ofNat b.length }

theorem fetched {src : Source W R} {n : UInt64} {s s' : Stream R} {w w' : W}
    {x : Except Failure (Option Bytes)} (hs : s.Tidy) (h : s.fetch src n w = (x, s', w')) :
    Fetched s n x s' := by
  unfold fetch at h
  split at h
  · next f s₁ w₁ hfill =>
    obtain ⟨hs₁, -, hnone⟩ := fill_snd hs hfill
    simp only [Prod.mk.injEq] at h
    obtain ⟨rfl, rfl, -⟩ := h
    rw [hs₁, hnone ⟨f, rfl⟩]
    exact .failed f _
  next s₁ w₁ hfill =>
  obtain ⟨hs₁, hfull, -⟩ := fill_snd hs hfill
  obtain ⟨hreader, hbytes⟩ := hfull rfl
  split at h
  · have hdrop := dropReader_snd src { s₁ with ended := true } w₁
    split at h
    · next f s₂ w₂ hd =>
      rw [hd] at hdrop
      simp only [Prod.mk.injEq] at h hdrop
      obtain ⟨rfl, rfl, -⟩ := h
      rw [hdrop, hs₁]
      exact .endFailed f
    · next s₂ w₂ hd =>
      rw [hd] at hdrop
      simp only [Prod.mk.injEq] at h hdrop
      obtain ⟨rfl, rfl, -⟩ := h
      rw [hdrop, hs₁]
      exact .ended
  next p hp =>
  have hcases : s₁.ended = false ∧ s₁.packet = some p := by
    split at hp
    · simp at hp
    · next hne => exact ⟨by simpa using hne, hp⟩
  rw [Packet.take_portion] at h
  simp only [Prod.mk.injEq] at h
  obtain ⟨rfl, rfl, -⟩ := h
  obtain ⟨r, hr⟩ := Option.isSome_iff_exists.1 hreader
  have hended : s.ended = false := by
    rw [hs₁] at hcases
    exact hcases.1
  rw [hs₁, hr]
  refine .bytes r _ (p.unread.take n.toNat) hended ?_ fun hn => ?_
  · rw [List.length_take]
    exact Nat.min_le_left ..
  · rw [List.length_take]
    exact Nat.lt_min.2 ⟨hn, hbytes p hcases.2⟩

/-- A read in sequence is refused, asks for nothing, or fetches. -/
theorem readSome_cases {src : Source W R} {n : UInt64} {s s' : Stream R} {w w' : W}
    {x : Except Failure (Option Bytes)} (h : s.readSome src n w = (x, s', w')) :
    s.closed = true ∧ x = .error (.misuse .closedStream) ∧ s' = s ∨
      s.closed = false ∧ n = 0 ∧ x = .ok (some []) ∧ s' = s ∨
      s.closed = false ∧ 0 < n.toNat ∧ s.fetch src n w = (x, s', w') := by
  unfold readSome at h
  split at h
  · next hclosed =>
    simp only [Prod.mk.injEq] at h
    exact .inl ⟨hclosed, h.1.symm, h.2.1.symm⟩
  next hopen =>
  have hopen' : s.closed = false := by simpa using hopen
  split at h
  · next hn =>
    simp only [Prod.mk.injEq] at h
    exact .inr (.inl ⟨hopen', hn, h.1.symm, h.2.1.symm⟩)
  · next hn =>
    refine .inr (.inr ⟨hopen', Nat.pos_of_ne_zero fun h0 => hn ?_, h⟩)
    exact UInt64.toNat_inj.1 h0

/-! ## Reading at a position -/

/-- What a read tells that gathered some bytes and closed its reader.  If gathering failed, closing
has no say in it. -/
def verdict (gathering closing : Except Failure Unit) (b : Bytes) : Except Failure (Option Nat) :=
  match gathering, closing with
  | .error f, _ => .error f
  | .ok (), .error g => .error g
  | .ok (), .ok () => .ok (countOf b)

theorem verdict_eq_error {y z : Except Failure Unit} {b : Bytes} {f : Failure}
    (h : verdict y z b = .error f) : y = .error f ∨ y = .ok () ∧ z = .error f := by
  rcases y with g | _
  · exact .inl (congrArg Except.error (Except.error.inj h))
  rcases z with g | _
  · exact .inr ⟨rfl, congrArg Except.error (Except.error.inj h)⟩
  · simp [verdict] at h

theorem verdict_eq_ok {y z : Except Failure Unit} {b : Bytes} {n : Option Nat}
    (h : verdict y z b = .ok n) : n = countOf b := by
  rcases y with g | _
  · simp [verdict] at h
  rcases z with g | _
  · simp [verdict] at h
  · exact (Except.ok.inj h).symm

/-- How a read at a position can end: what it tells, the bytes that it obtains, and the surroundings
that it leaves behind. -/
inductive ReadAt (src : Source W R) (s : Stream R) (target : Int64) (count : UInt64) (w : W) :
    Except Failure (Option Nat) → Bytes → W → Prop
  | shut (h : s.closed = true) : ReadAt src s target count w (.error (.misuse .closedStream)) [] w
  | idle (h : count = 0) : ReadAt src s target count w (.ok (some 0)) [] w
  | outside (h : (target < 0 || s.length ≤ target.toUInt64) = true) :
    ReadAt src s target count w (.ok none) [] w
  | refused {f : Failure} {w' : W} (hcreate : src.create target.toUInt64 count w = (.error f, w')) :
    ReadAt src s target count w (.error f) [] w'
  /-- A reader was made, gathered from and closed.  If closing it failed after gathering did, that
  was noted down. -/
  | gathered {r r₁ r₂ : R} {w₀ w₁ w₂ w' : W} {got : List Bytes} {y z : Except Failure Unit}
    (hcreate : src.create target.toUInt64 count w = (.ok r, w₀))
    (hgather : src.gather s.block count.toNat emptyPacketLimit [] r w₀ = (y, got, r₁, w₁))
    (hclose : src.close r₁ w₁ = (z, r₂, w₂)) (hnoted : w' = w₂ ∨ ∃ n, w' = note n w₂) :
    ReadAt src s target count w (verdict y z got.reverse.flatten) got.reverse.flatten w'

theorem readAt_cases {src : Source W R} {s : Stream R} {target : Int64} {count : UInt64} {w w' : W}
    {x : Except Failure (Option Nat)} {b : Bytes} (h : s.readAt src target count w = (x, b, w')) :
    ReadAt src s target count w x b w' := by
  unfold readAt at h
  split at h
  · next hclosed =>
    simp only [Prod.mk.injEq] at h
    obtain ⟨rfl, rfl, rfl⟩ := h
    exact .shut hclosed
  split at h
  · next hzero =>
    simp only [Prod.mk.injEq] at h
    obtain ⟨rfl, rfl, rfl⟩ := h
    exact .idle hzero
  split at h
  · next hpast =>
    simp only [Prod.mk.injEq] at h
    obtain ⟨rfl, rfl, rfl⟩ := h
    exact .outside hpast
  split at h
  · next hcreate =>
    simp only [Prod.mk.injEq] at h
    obtain ⟨rfl, rfl, rfl⟩ := h
    exact .refused hcreate
  next hcreate =>
  split at h
  · next hgather =>
    split at h
    · next hclose =>
      simp only [Prod.mk.injEq] at h
      obtain ⟨rfl, rfl, rfl⟩ := h
      exact .gathered hcreate hgather hclose (.inr ⟨_, rfl⟩)
    · next hclose =>
      simp only [Prod.mk.injEq] at h
      obtain ⟨rfl, rfl, rfl⟩ := h
      exact .gathered hcreate hgather hclose (.inl rfl)
  · next hgather =>
    split at h
    all_goals
      next hclose =>
      simp only [Prod.mk.injEq] at h
      obtain ⟨rfl, rfl, rfl⟩ := h
      exact .gathered hcreate hgather hclose (.inl rfl)

/-! ## Moving and closing -/

omit [Journaled W] in
theorem seek_cases {src : Source W R} {target : Int64} {s s' : Stream R} {w w' : W}
    {x : Except Failure Unit} (h : s.seek src target w = (x, s', w')) :
    s' = s ∨
      s.closed = false ∧ 0 ≤ target.toInt ∧ target.toUInt64 ≤ s.length ∧
        ((∃ f, x = .error f) ∧
            s' = { s.rewound target.toUInt64 with reader := none, packet := none } ∨
          x = .ok () ∧
            s' = { s.rewound target.toUInt64 with
              reader := none, packet := none, position := target.toUInt64 }) := by
  unfold seek at h
  split at h
  · exact .inl (congrArg (fun z => z.2.1) h).symm
  next hopen =>
  split at h
  · exact .inl (congrArg (fun z => z.2.1) h).symm
  next hneg =>
  split at h
  · exact .inl (congrArg (fun z => z.2.1) h).symm
  next hlength =>
  split at h
  · exact .inl (congrArg (fun z => z.2.1) h).symm
  have hdrop := dropReader_snd src (s.rewound target.toUInt64) w
  refine .inr ⟨by simpa using hopen, ?_, ?_, ?_⟩
  · rw [Offset.neg_iff] at hneg
    omega
  · rw [UInt64.lt_iff_toNat_lt] at hlength
    exact UInt64.le_iff_toNat_le.2 (Nat.le_of_not_lt hlength)
  split at h
  · next f s₁ w₁ hd =>
    rw [hd] at hdrop
    simp only [Prod.mk.injEq] at h hdrop
    obtain ⟨rfl, rfl, -⟩ := h
    exact .inl ⟨⟨f, rfl⟩, hdrop⟩
  · next s₁ w₁ hd =>
    rw [hd] at hdrop
    simp only [Prod.mk.injEq] at h hdrop
    obtain ⟨rfl, rfl, -⟩ := h
    exact .inr ⟨rfl, by rw [hdrop]⟩

section Seek

variable {src : Source W R} {target : Int64} {s : Stream R} {w w' : W}

omit [Journaled W] in
/-- Moving to where the stream is does nothing. -/
theorem seek_self (hopen : s.closed = false) (hstart : 0 ≤ target.toInt)
    (hend : target.toUInt64 ≤ s.length) (heq : target.toUInt64 = s.position) :
    s.seek src target w = (.ok (), s, w) := by
  have hneg : ¬target < 0 := by
    rw [Offset.neg_iff]
    omega
  rw [seek, if_neg (by simp [hopen]), if_neg hneg, if_neg (UInt64.not_lt.2 hend), if_pos heq]

omit [Journaled W] in
/-- Moving elsewhere gives up the reader first. -/
theorem seek_of_ne (hopen : s.closed = false) (hstart : 0 ≤ target.toInt)
    (hend : target.toUInt64 ≤ s.length) (hne : target.toUInt64 ≠ s.position)
    (hd : (s.rewound target.toUInt64).dropReader src w =
      (.ok (), { s.rewound target.toUInt64 with reader := none, packet := none }, w')) :
    s.seek src target w =
      (.ok (), { s.rewound target.toUInt64 with
        reader := none, packet := none, position := target.toUInt64 }, w') := by
  have hneg : ¬target < 0 := by
    rw [Offset.neg_iff]
    omega
  rw [seek, if_neg (by simp [hopen]), if_neg hneg, if_neg (UInt64.not_lt.2 hend), if_neg hne, hd]

end Seek

omit [Journaled W] in
theorem skip_cases {src : Source W R} {n : Int64} {s s' : Stream R} {w w' : W}
    {x : Except Failure Int64} (h : s.skip src n w = (x, s', w')) :
    s' = s ∧ (∀ k, x = .ok k → k = 0) ∨
      ∃ left, s.remaining = .ok left ∧ 0 < n.toInt ∧ (∀ k, x = .ok k → k = min left n) ∧
        s' = { s with
          position := s.position + (min left n).toUInt64, reader := none, packet := none } := by
  unfold skip at h
  split at h
  · simp only [Prod.mk.injEq] at h
    obtain ⟨rfl, rfl, -⟩ := h
    exact .inl ⟨rfl, fun k hk => by simp at hk⟩
  next left hleft =>
  split at h
  · simp only [Prod.mk.injEq] at h
    obtain ⟨rfl, rfl, -⟩ := h
    exact .inl ⟨rfl, fun k hk => (Except.ok.inj hk).symm⟩
  next hn =>
  have hdrop := dropReader_snd src { s with position := s.position + (min left n).toUInt64 } w
  refine .inr ⟨left, hleft, ?_, ?_⟩
  · rw [Int64.le_iff_toInt_le, Int64.toInt_zero] at hn
    omega
  split at h
  · next f s₁ w₁ hd =>
    rw [hd] at hdrop
    simp only [Prod.mk.injEq] at h hdrop
    obtain ⟨rfl, rfl, -⟩ := h
    exact ⟨fun k hk => by simp at hk, hdrop⟩
  · next s₁ w₁ hd =>
    rw [hd] at hdrop
    simp only [Prod.mk.injEq] at h hdrop
    obtain ⟨rfl, rfl, -⟩ := h
    exact ⟨fun k hk => (Except.ok.inj hk).symm, hdrop⟩

omit [Journaled W] in
theorem close_snd (src : Source W R) (s : Stream R) (w : W) :
    (s.close src w).2.1 =
      if s.closed then s else { s with closed := true, reader := none, packet := none } := by
  have hdrop := dropReader_snd src { s with closed := true } w
  unfold close
  split
  · rfl
  split
  next x s₁ w₁ hd =>
  rw [hd] at hdrop
  split <;> exact hdrop

/-! ## Calls -/

/-- The number of bytes that were obtained. -/
def obtained : Except Failure (Option Bytes) → Nat
  | .ok (some b) => b.length
  | _ => 0

omit [Journaled W] in
/-- Stream and window are looked at without a source. -/
theorem destination?_error {s : Stream R} {memory : Option Destination} {offset count : UInt64}
    {f : Failure} (h : s.destination? memory offset count = .error f) : ∃ m, f = .misuse m := by
  unfold destination? at h
  split at h
  · exact ⟨_, (Except.error.inj h).symm⟩
  split at h
  · exact ⟨_, (Except.error.inj h).symm⟩
  split at h
  · simp at h
  · exact ⟨_, (Except.error.inj h).symm⟩

/-- A read in sequence leaves the stream alone, and then no transport has failed, or it fetches and
tells what it fetched. -/
theorem reads_cases (src : Source W R) {op : Op} (hop : op.reads = true) {p : Stream R × W}
    (hs : p.1.Tidy) :
    (step src op p).after.1 = p.1 ∧ (step src op p).taken = 0 ∧
        (∀ cause, (step src op p).outcome.result ≠ .error (.transport cause)) ∨
      ∃ n x, p.1.closed = false ∧ 0 < n.toNat ∧
        p.1.fetch src n p.2 = (x, (step src op p).after) ∧
        (step src op p).outcome.result = x.map op.answer ∧ (step src op p).taken = obtained x := by
  cases op with
  | readByte =>
    rcases hr : p.1.readSome src 1 p.2 with ⟨x, s', w'⟩
    rw [step_readByte hr]
    rcases readSome_cases hr with ⟨-, rfl, hq⟩ | ⟨-, h0, -, -⟩ | ⟨hopen, hn, hf⟩
    · exact .inl ⟨hq, rfl, fun cause hx => by simp [Except.map] at hx⟩
    · exact absurd h0 (by decide)
    · refine .inr ⟨1, x, hopen, hn, hf, rfl, ?_⟩
      rcases x with f | _ | b
      · rfl
      · rfl
      · cases fetched hs hf with
        | bytes r p b _ hle hpos =>
          have hone : b.length = 1 := Nat.le_antisymm hle (hpos hn)
          obtain ⟨c, rfl⟩ := List.length_eq_one_iff.1 hone
          rfl
  | read memory offset count =>
    cases hd : p.1.destination? memory offset count with
    | error f =>
      obtain ⟨m, rfl⟩ := destination?_error hd
      rw [step_read_refused hd]
      exact .inl ⟨rfl, rfl, fun cause hx => by simp at hx⟩
    | ok d =>
      rcases hr : p.1.readSome src count p.2 with ⟨x, s', w'⟩
      rw [step_read hd hr]
      rcases readSome_cases hr with ⟨-, rfl, hq⟩ | ⟨-, -, rfl, hq⟩ | ⟨hopen, hn, hf⟩
      · exact .inl ⟨hq, rfl, fun cause hx => by simp [Except.map] at hx⟩
      · exact .inl ⟨hq, rfl, fun cause hx => by simp [Except.map] at hx⟩
      · refine .inr ⟨count, x, hopen, hn, hf, rfl, ?_⟩
        rcases x with f | _ | b <;> rfl
  | _ => simp [Op.reads] at hop

/-- A read in sequence changes neither what a stream is over nor whether it is open. -/
theorem Fetched.keeps {n : UInt64} {s s' : Stream R} {x : Except Failure (Option Bytes)}
    (h : Fetched s n x s') :
    s'.block = s.block ∧ s'.length = s.length ∧ s'.closed = s.closed ∧ s'.Tidy := by
  cases h with
  | bytes r p b => exact ⟨rfl, rfl, rfl, fun hr => by simp at hr⟩
  | _ => exact ⟨rfl, rfl, rfl, fun _ => rfl⟩

/-- No call but closing changes what a stream is over or whether it is open. -/
theorem step_keeps (src : Source W R) {op : Op} (hop : op ≠ .close) {p : Stream R × W}
    (hs : p.1.Tidy) :
    (step src op p).after.1.block = p.1.block ∧ (step src op p).after.1.length = p.1.length ∧
      (step src op p).after.1.closed = p.1.closed ∧ (step src op p).after.1.Tidy := by
  have hread (hr : op.reads = true) :
      (step src op p).after.1.block = p.1.block ∧ (step src op p).after.1.length = p.1.length ∧
        (step src op p).after.1.closed = p.1.closed ∧ (step src op p).after.1.Tidy := by
    rcases reads_cases src hr hs with ⟨heq, -⟩ | ⟨n, x, -, -, hf, -⟩
    · rw [heq]
      exact ⟨rfl, rfl, rfl, hs⟩
    · exact (fetched hs hf).keeps
  cases op with
  | readByte => exact hread rfl
  | read memory offset count => exact hread rfl
  | readAt target memory offset count => exact ⟨rfl, rfl, rfl, hs⟩
  | remaining => exact ⟨rfl, rfl, rfl, hs⟩
  | position => exact ⟨rfl, rfl, rfl, hs⟩
  | seek target =>
    rcases h : p.1.seek src target p.2 with ⟨x, s', w'⟩
    simp only [step, perform, h]
    rcases seek_cases h with rfl | ⟨-, -, -, ⟨-, rfl⟩ | ⟨-, rfl⟩⟩
    · exact ⟨rfl, rfl, rfl, hs⟩
    · exact ⟨rfl, rfl, rfl, fun _ => rfl⟩
    · exact ⟨rfl, rfl, rfl, fun _ => rfl⟩
  | skip n =>
    rcases h : p.1.skip src n p.2 with ⟨x, s', w'⟩
    simp only [step, perform, h]
    rcases skip_cases h with ⟨rfl, -⟩ | ⟨left, -, -, -, rfl⟩
    · exact ⟨rfl, rfl, rfl, hs⟩
    · exact ⟨rfl, rfl, rfl, fun _ => rfl⟩
  | close => exact absurd rfl hop

/-- Through all calls a stream stays over the same block, and a packet is there only with a
reader. -/
theorem step_tidy (src : Source W R) (op : Op) {p : Stream R × W} (hs : p.1.Tidy) :
    (step src op p).after.1.Tidy ∧ (step src op p).after.1.length = p.1.length := by
  by_cases hop : op = .close
  · subst hop
    have hafter : (step src .close p).after.1 =
        if p.1.closed then p.1 else { p.1 with closed := true, reader := none, packet := none } :=
      close_snd src p.1 p.2
    rw [hafter]
    split
    · exact ⟨hs, rfl⟩
    · exact ⟨fun _ => rfl, rfl⟩
  · obtain ⟨-, hlength, -, htidy⟩ := step_keeps src hop hs
    exact ⟨htidy, hlength⟩

/-- A call that is not a read in sequence leaves the stream alone or gives up its reader. -/
theorem step_moves (src : Source W R) {op : Op} (hop : op.reads = false) (p : Stream R × W) :
    (step src op p).after.1 = p.1 ∨
      (step src op p).after.1.reader = none ∧ (step src op p).after.1.packet = none := by
  cases op with
  | readByte | read => simp [Op.reads] at hop
  | readAt | remaining | position => exact .inl rfl
  | seek target =>
    rcases h : p.1.seek src target p.2 with ⟨x, s', w'⟩
    simp only [step, perform, h]
    rcases seek_cases h with hs | ⟨-, -, -, ⟨-, rfl⟩ | ⟨-, rfl⟩⟩
    · exact .inl hs
    · exact .inr ⟨rfl, rfl⟩
    · exact .inr ⟨rfl, rfl⟩
  | skip n =>
    rcases h : p.1.skip src n p.2 with ⟨x, s', w'⟩
    simp only [step, perform, h]
    rcases skip_cases h with ⟨hs, -⟩ | ⟨left, -, -, -, rfl⟩
    · exact .inl hs
    · exact .inr ⟨rfl, rfl⟩
  | close =>
    have hafter : (step src .close p).after.1 =
        if p.1.closed then p.1 else { p.1 with closed := true, reader := none, packet := none } :=
      close_snd src p.1 p.2
    rw [hafter]
    split
    · exact .inl rfl
    · exact .inr ⟨rfl, rfl⟩

/-- The calls that need an open stream. -/
def Op.needsOpen : Op → Bool
  | .position | .close => false
  | _ => true

/-- On a closed stream a call does nothing, and one that needs an open stream says so. -/
theorem step_closed (src : Source W R) (op : Op) {p : Stream R × W} (hc : p.1.closed = true) :
    (step src op p).after = p ∧
      (op.needsOpen = true →
        (step src op p).outcome.result = .error (.misuse .closedStream)) := by
  have hd (memory : Option Destination) (offset count : UInt64) :
      p.1.destination? memory offset count = .error (.misuse .closedStream) := by
    simp [destination?, hc]
  have hremaining : p.1.remaining = .error (.misuse .closedStream) := by
    rw [remaining, if_pos hc]
  cases op with
  | readByte =>
    rw [step_readByte (x := .error (.misuse .closedStream)) (q := p) (by rw [readSome, if_pos hc])]
    exact ⟨rfl, fun _ => rfl⟩
  | read memory offset count =>
    rw [step_read_refused (hd memory offset count)]
    exact ⟨rfl, fun _ => rfl⟩
  | readAt target memory offset count =>
    constructor <;> simp [step, perform, readAtInto, hd, Except.map]
  | remaining => constructor <;> simp [step, perform, hremaining, Except.map]
  | position => exact ⟨rfl, fun h => by simp [Op.needsOpen] at h⟩
  | seek target => constructor <;> simp [step, perform, seek, hc, Except.map]
  | skip n => constructor <;> simp [step, perform, skip, hremaining, Except.map]
  | close => constructor <;> simp [step, perform, close, hc, Op.needsOpen]

end Stream
end BlockAccess
