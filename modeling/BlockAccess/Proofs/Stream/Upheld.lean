import BlockAccess.Proofs.Stream.Moves

/-!
# What the operations of a source keep, a stream keeps

Whatever a client does, the surroundings change through the operations of the source and through
notices only, and the operations come in an order that the session prescribes: a reader is made
where there is none, a packet is fetched where there is none, a packet is given back before its
reader is closed.  So a relation between the reader, the packet and the surroundings of a session
holds after every call as soon as each operation keeps it.

`Source.Upholds src offset length I` says that each operation keeps `I`; readers are made for
`length` bytes from `offset` on, because one call makes at most one reader and makes it for a range
that is known beforehand.  From it there is one lemma for each function of a stream, up to
`Upholds.step` for the calls in sequence, `Upholds.closing` for closing, and `Upholds.readAt` for
reads at a position, whose reader and packets are a session of their own.
-/

namespace BlockAccess

/-- The packet that was handed out, if one was. -/
def Source.handed : Except Failure (Option Packet) → Option Packet
  | .ok p => p
  | .error _ => none

/-- The operations of a source keep a relation between a session and its surroundings. -/
structure Source.Upholds {W R : Type} [Journaled W] (src : Source W R) (offset length : UInt64)
    (I : Option R → Option Packet → W → Prop) : Prop where
  note : ∀ {r p w} (n : Notice), I r p w → I r p (note n w)
  create : ∀ {p w x w'}, I none p w → src.create offset length w = (x, w') → I x.toOption p w'
  next : ∀ {r w x r' w'}, I (some r) none w → src.next r w = (x, r', w') →
    I (some r') (Source.handed x) w'
  release : ∀ {r p w}, I r (some p) w → I r none (src.release p w)
  close : ∀ {r w x r' w'}, I (some r) none w → src.close r w = (x, r', w') → I none none w'
  /-- What is left of a packet is none of the relation's business. -/
  unread : ∀ {r p w} (b : Bytes), I r (some p) w → I r (some { p with unread := b }) w

/-- Taking from a packet changes what is left of it and nothing else. -/
theorem Packet.take_snd (p : Packet) (n : UInt64) :
    (p.take n).2 = { p with unread := (p.take n).2.unread } := by
  unfold Packet.take
  split <;> rfl

namespace Source.Upholds

variable {W R : Type} [Journaled W] {src : Source W R} {offset length : UInt64}
  {I : Option R → Option Packet → W → Prop}

/-! ## The functions of a session -/

theorem pull (u : src.Upholds offset length I) {block : UInt64} {budget : Nat} {r r' : R}
    {w w' : W} {x : Except Failure (Option Packet)} (hI : I (some r) none w)
    (h : src.pull block budget r w = (x, r', w')) : I (some r') (handed x) w' := by
  induction budget generalizing r w with
  | zero =>
    simp only [Source.pull, Prod.mk.injEq] at h
    obtain ⟨rfl, rfl, rfl⟩ := h
    exact hI
  | succ budget ih =>
    unfold Source.pull at h
    split at h
    · next p r₁ w₁ hp =>
      have hnext := u.next hI hp
      split at h
      · exact ih (u.release (u.note _ hnext)) h
      · simp only [Prod.mk.injEq] at h
        obtain ⟨rfl, rfl, rfl⟩ := h
        exact hnext
    · next x₁ r₁ w₁ hx =>
      simp only [Prod.mk.injEq] at h
      obtain ⟨rfl, rfl, rfl⟩ := h
      exact u.next hI hx

theorem releasePacket (u : src.Upholds offset length I) {s : Stream R} {w : W}
    (hI : I s.reader s.packet w) : I s.reader none (s.releasePacket src w).2 := by
  unfold Stream.releasePacket
  split
  · next hp => exact hp ▸ hI
  · next p hp => exact u.release (hp ▸ hI)

theorem dropReader (u : src.Upholds offset length I) {s : Stream R} {w : W}
    (hI : I s.reader s.packet w) : I none none (s.dropReader src w).2.2 := by
  have hs := Stream.releasePacket_fst src s w
  have hrel := u.releasePacket hI
  unfold Stream.dropReader
  split
  next s₁ w₁ h₁ =>
  rw [h₁] at hs hrel
  dsimp only at hs hrel
  subst hs
  split
  · next hr => exact hr ▸ hrel
  · next r hr =>
    dsimp only at hr
    rw [hr] at hrel
    split
    next x r' w₂ hc => exact u.close hrel hc

theorem withReader {s s' : Stream R} {w w' : W} {x : Except Failure R}
    (u : src.Upholds s.position s.rest I) (hI : I s.reader s.packet w)
    (h : s.withReader src w = (x, s', w')) : I s'.reader s.packet w' := by
  unfold Stream.withReader at h
  split at h
  · simp only [Prod.mk.injEq] at h
    obtain ⟨-, rfl, rfl⟩ := h
    exact hI
  next hr =>
  rw [hr] at hI
  split at h
  · next f w₁ hc =>
    simp only [Prod.mk.injEq] at h
    obtain ⟨-, rfl, rfl⟩ := h
    rw [hr]
    exact u.create (u.note _ hI) hc
  · next r w₁ hc =>
    simp only [Prod.mk.injEq] at h
    obtain ⟨-, rfl, rfl⟩ := h
    exact u.create (u.note _ hI) hc

theorem fill {s s' : Stream R} {w w' : W} {x : Except Failure Unit}
    (u : src.Upholds s.position s.rest I) (hI : I s.reader s.packet w)
    (h : s.fill src w = (x, s', w')) : I s'.reader s'.packet w' := by
  unfold Stream.fill at h
  split at h
  · next f s₁ w₁ hr =>
    have hreader := u.withReader hI hr
    obtain ⟨hs₁, -⟩ := Stream.withReader_snd hr
    simp only [Prod.mk.injEq] at h
    obtain ⟨-, rfl, rfl⟩ := h
    rw [hs₁]
    exact hreader
  next r s₁ w₁ hr =>
  obtain ⟨hs₁, hsome⟩ := Stream.withReader_snd hr
  have hreader : I s₁.reader s₁.packet w₁ := by
    have := u.withReader hI hr
    rwa [hs₁] at this ⊢
  split at h
  · simp only [Prod.mk.injEq] at h
    obtain ⟨-, rfl, rfl⟩ := h
    exact hreader
  have hrel := u.releasePacket hreader
  split at h
  next s₂ w₂ h₂ =>
  rw [h₂, hsome r rfl] at hrel
  split at h
  · next f r' w₃ hpull =>
    have hs₂ := Stream.releasePacket_fst src s₁ w₁
    rw [h₂] at hs₂
    dsimp only at hs₂
    simp only [Prod.mk.injEq] at h
    obtain ⟨-, rfl, rfl⟩ := h
    rw [hs₂]
    exact u.pull hrel hpull
  · next p r' w₃ hpull =>
    simp only [Prod.mk.injEq] at h
    obtain ⟨-, rfl, rfl⟩ := h
    exact u.pull hrel hpull

theorem fetch {n : UInt64} {s s' : Stream R} {w w' : W} {x : Except Failure (Option Bytes)}
    (u : src.Upholds s.position s.rest I) (hI : I s.reader s.packet w)
    (h : s.fetch src n w = (x, s', w')) : I s'.reader s'.packet w' := by
  unfold Stream.fetch at h
  split at h
  · next f s₁ w₁ hf =>
    have hfill := u.fill hI hf
    simp only [Prod.mk.injEq] at h
    obtain ⟨-, rfl, rfl⟩ := h
    exact hfill
  next s₁ w₁ hf =>
  have hfill := u.fill hI hf
  split at h
  · have hsnd := Stream.dropReader_snd src { s₁ with ended := true } w₁
    have hdrop := u.dropReader (s := { s₁ with ended := true }) hfill
    split at h
    all_goals
      next hd =>
      rw [hd] at hdrop hsnd
      dsimp only at hsnd
      simp only [Prod.mk.injEq] at h
      obtain ⟨-, rfl, rfl⟩ := h
      rw [hsnd]
      exact hdrop
  next p hp =>
  have hpacket : s₁.packet = some p := by
    split at hp
    · simp at hp
    · exact hp
  rw [hpacket] at hfill
  rw [Packet.take_portion] at h
  simp only [Prod.mk.injEq] at h
  obtain ⟨-, rfl, rfl⟩ := h
  exact u.unread _ hfill

theorem readSome {n : UInt64} {s s' : Stream R} {w w' : W} {x : Except Failure (Option Bytes)}
    (u : src.Upholds s.position s.rest I) (hI : I s.reader s.packet w)
    (h : s.readSome src n w = (x, s', w')) : I s'.reader s'.packet w' := by
  unfold Stream.readSome at h
  split at h
  · simp only [Prod.mk.injEq] at h
    obtain ⟨-, rfl, rfl⟩ := h
    exact hI
  split at h
  · simp only [Prod.mk.injEq] at h
    obtain ⟨-, rfl, rfl⟩ := h
    exact hI
  · exact u.fetch hI h

theorem seek {target : Int64} {s s' : Stream R} {w w' : W} {x : Except Failure Unit}
    (u : src.Upholds offset length I) (hI : I s.reader s.packet w)
    (h : s.seek src target w = (x, s', w')) : I s'.reader s'.packet w' := by
  unfold Stream.seek at h
  -- four ways out leave the stream as it is
  iterate 4
    split at h
    · simp only [Prod.mk.injEq] at h
      obtain ⟨-, rfl, rfl⟩ := h
      exact hI
  have hsnd := Stream.dropReader_snd src (s.rewound target.toUInt64) w
  have hdrop := u.dropReader (s := s.rewound target.toUInt64) hI
  split at h
  all_goals
    next hd =>
    rw [hd] at hdrop hsnd
    dsimp only at hsnd
    simp only [Prod.mk.injEq] at h
    obtain ⟨-, rfl, rfl⟩ := h
    rw [hsnd]
    exact hdrop

theorem skip {n : Int64} {s s' : Stream R} {w w' : W} {x : Except Failure Int64}
    (u : src.Upholds offset length I) (hI : I s.reader s.packet w)
    (h : s.skip src n w = (x, s', w')) : I s'.reader s'.packet w' := by
  unfold Stream.skip at h
  split at h
  · simp only [Prod.mk.injEq] at h
    obtain ⟨-, rfl, rfl⟩ := h
    exact hI
  next left _ =>
  split at h
  · simp only [Prod.mk.injEq] at h
    obtain ⟨-, rfl, rfl⟩ := h
    exact hI
  have hsnd := Stream.dropReader_snd src
    { s with position := s.position + (min left n).toUInt64 } w
  have hdrop := u.dropReader (s := { s with position := s.position + (min left n).toUInt64 }) hI
  split at h
  all_goals
    next hd =>
    rw [hd] at hdrop hsnd
    dsimp only at hsnd
    simp only [Prod.mk.injEq] at h
    obtain ⟨-, rfl, rfl⟩ := h
    rw [hsnd]
    exact hdrop

/-- Closing an open stream closes the source when the session is over. -/
theorem closing (u : src.Upholds offset length I) {s : Stream R} {w : W} (hopen : s.closed = false)
    (hI : I s.reader s.packet w) :
    ∃ w₁, I none none w₁ ∧ (s.close src w).2.2 = (src.shutDown w₁).2 := by
  have hdrop := u.dropReader (s := { s with closed := true }) hI
  unfold Stream.close
  rw [hopen]
  simp only [Bool.false_eq_true, if_false]
  refine ⟨_, hdrop, ?_⟩
  split
  · next hs => rw [hs]
  · next hs => rw [hs]

/-! ## Reads at a position -/

theorem gather (u : src.Upholds offset length I) {block : UInt64} {wanted budget : Nat}
    {got got' : List Bytes} {r r' : R} {w w' : W} {x : Except Failure Unit}
    (hI : I (some r) none w)
    (h : src.gather block wanted budget got r w = (x, got', r', w')) : I (some r') none w' := by
  fun_induction Source.gather src block wanted budget got r w with
  | case1 budget got r w | case2 wanted got r w =>
    simp only [Prod.mk.injEq] at h
    obtain ⟨-, -, rfl, rfl⟩ := h
    exact hI
  | case3 wanted got r w _ budget f r₁ w₁ hn | case4 wanted got r w _ budget r₁ w₁ hn =>
    simp only [Prod.mk.injEq] at h
    obtain ⟨-, -, rfl, rfl⟩ := h
    exact u.next hI hn
  | case5 wanted got r w _ budget p r₁ w₁ hn _ ih =>
    exact ih (u.release (u.note _ (u.next hI hn))) h
  | case6 wanted got r w _ budget p r₁ w₁ hn =>
    simp only [Prod.mk.injEq] at h
    obtain ⟨-, -, rfl, rfl⟩ := h
    exact u.release (u.next hI hn)
  | case7 wanted got r w _ budget p r₁ w₁ hn _ _ f p₁ hp =>
    simp only [Prod.mk.injEq] at h
    obtain ⟨-, -, rfl, rfl⟩ := h
    have hsnd := p.take_snd (UInt64.ofNat p.readable)
    rw [hp] at hsnd
    dsimp only at hsnd
    rw [hsnd]
    exact u.release (u.unread _ (u.next hI hn))
  | case8 wanted got r w _ budget p r₁ w₁ hn _ _ b taken hp ih =>
    have hsnd := p.take_snd (UInt64.ofNat p.readable)
    rw [hp] at hsnd
    dsimp only at hsnd
    refine ih ?_ h
    rw [hsnd]
    exact u.release (u.unread _ (u.next hI hn))

theorem readAt {target : Int64} {count : UInt64} {s : Stream R} {w : W}
    (u : src.Upholds target.toUInt64 count I) (hI : I none none w) :
    I none none (s.readAt src target count w).2.2 := by
  unfold Stream.readAt
  iterate 3
    split
    · exact hI
  split
  · next f w₁ hc => exact u.create hI hc
  next r w₁ hc =>
  have hr : I (some r) none w₁ := u.create hI hc
  split
  · next f got r₁ w₂ hg =>
    have hgather := u.gather hr hg
    split
    · next g r₂ w₃ hclose => exact u.note _ (u.close hgather hclose)
    · next r₂ w₃ hclose => exact u.close hgather hclose
  · next got r₁ w₂ hg =>
    have hgather := u.gather hr hg
    split
    · next f r₂ w₃ hclose => exact u.close hgather hclose
    · next r₂ w₃ hclose => exact u.close hgather hclose

/-! ## Calls -/

/-- The calls in sequence keep what the operations keep. -/
theorem step {op : Stream.Op} (hop : op.sequential = true) {p : Stream R × W}
    (u : src.Upholds p.1.position p.1.rest I) (hI : I p.1.reader p.1.packet p.2) :
    I (Stream.step src op p).after.1.reader (Stream.step src op p).after.1.packet
      (Stream.step src op p).after.2 := by
  cases op with
  | readByte =>
    rcases hr : p.1.readSome src 1 p.2 with ⟨x, s', w'⟩
    rw [Stream.step_readByte hr]
    exact u.readSome hI hr
  | read memory offset count =>
    cases hd : p.1.destination? memory offset count with
    | error f =>
      rw [Stream.step_read_refused hd]
      exact hI
    | ok d =>
      rcases hr : p.1.readSome src count p.2 with ⟨x, s', w'⟩
      rw [Stream.step_read hd hr]
      exact u.readSome hI hr
  | readAt target memory offset count => simp [Stream.Op.sequential] at hop
  | remaining => exact hI
  | position => exact hI
  | seek target =>
    rcases hs : p.1.seek src target p.2 with ⟨x, s', w'⟩
    simp only [Stream.step, Stream.perform, hs]
    exact u.seek hI hs
  | skip n =>
    rcases hs : p.1.skip src n p.2 with ⟨x, s', w'⟩
    simp only [Stream.step, Stream.perform, hs]
    exact u.skip hI hs
  | close => simp [Stream.Op.sequential] at hop

/-- A read at a position leaves the stream alone and keeps what the operations keep. -/
theorem step_readAt {target : Int64} {memory : Option Destination} {start count : UInt64}
    {p : Stream R × W} (u : src.Upholds target.toUInt64 count I) (hI : I none none p.2) :
    (Stream.step src (.readAt target memory start count) p).after.1 = p.1 ∧
      I none none (Stream.step src (.readAt target memory start count) p).after.2 := by
  cases hd : p.1.destination? memory start count with
  | error f =>
    simp only [Stream.step, Stream.perform, Stream.readAtInto, hd]
    exact ⟨trivial, hI⟩
  | ok d =>
    simp only [Stream.step, Stream.perform, Stream.readAtInto, hd]
    exact ⟨trivial, u.readAt hI⟩

end Source.Upholds
end BlockAccess
