import BlockAccess.Proofs.Source.Independent
import BlockAccess.Proofs.Stream.Moves

/-!
# Positioned reads do not interfere

Over a source whose readers are independent, a client may leave out any of its positioned reads and
learns the same from all its other calls (`undisturbed_history`).

The way there is a second run.  A stream `Mirrors` a stream over the ideal source if both look alike
and the reader of the one conducts itself like the reader of the other.  Each call keeps that and
ends the same on both sides, so a run over the source ends as the run over the ideal source does.
There is nothing around the ideal source that a positioned read could change, so there it is left
out for nothing.
-/

namespace BlockAccess
namespace Stream

/-! ## Streams that look alike -/

/-- Two streams look alike but for their readers, as far as the bytes of packets go. -/
structure Alike {R R' : Type} (s : Stream R) (t : Stream R') : Prop where
  block : t.block = s.block
  length : t.length = s.length
  position : t.position = s.position
  closed : t.closed = s.closed
  ended : t.ended = s.ended
  unread : t.packet.map Packet.unread = s.packet.map Packet.unread

variable {W R : Type} [Journaled W] {src : Source W R}

/-- A stream looks like one over the ideal source, and its reader, if there is one, conducts itself
like the reader of that. -/
structure Mirrors (i : src.Independent) (p : Stream R × W) (t : Stream i.Conduct) : Prop
    extends p.1.Alike t where
  live : ∃ m : Option (R × i.Conduct), p.1.reader = m.map Prod.fst ∧ t.reader = m.map Prod.snd ∧
    i.Live m.toList p.2

variable {i : src.Independent} {s : Stream R} {w : W} {t : Stream i.Conduct}

/-- Giving back a packet is none of the readers' business. -/
theorem live_releasePacket {l : List (R × i.Conduct)} (s : Stream R) (h : i.Live l w) :
    i.Live l (s.releasePacket src w).2 := by
  unfold releasePacket
  split
  · exact h
  · exact i.live_release _ h

namespace Mirrors

theorem rest_eq (h : Mirrors i (s, w) t) : t.rest = s.rest := by
  rw [rest, h.length, h.position, rest]

/-- Giving up the reader ends the same. -/
theorem dropReader (h : Mirrors i (s, w) t) : ∃ x w',
    s.dropReader src w = (x, { s with reader := none, packet := none }, w') ∧
      t.dropReader i.ideal () = (x, { t with reader := none, packet := none }, ()) ∧
      i.Live [] w' := by
  obtain ⟨m, hr, hb, hl⟩ := h.live
  have hl₁ := live_releasePacket s hl
  cases m with
  | none => exact ⟨.ok (), _, dropReader_of_none hr w, dropReader_of_none hb (), hl₁⟩
  | some rb =>
    obtain ⟨x, r', b', w', hclose, hclose', hl'⟩ := i.close hl₁
    exact ⟨x, w', dropReader_of_some hr hclose, dropReader_of_some hb hclose', hl'⟩

/-- Streams that gave up their readers still look alike. -/
theorem dropped (h : Mirrors i (s, w) t) {w' : W} (hl : i.Live [] w') :
    Mirrors i ({ s with reader := none, packet := none }, w')
      { t with reader := none, packet := none } :=
  { h with unread := rfl, live := ⟨none, rfl, rfl, hl⟩ }

/-! ## Reading in sequence -/

/-- Seeing to it that there is a reader ends the same. -/
theorem withReader (h : Mirrors i (s, w) t) :
    (∃ f w', s.withReader src w = (.error f, s, w') ∧
      t.withReader i.ideal () = (.error f, t, ()) ∧ Mirrors i (s, w') t) ∨
    ∃ r b w', s.withReader src w = (.ok r, { s with reader := some r }, w') ∧
      t.withReader i.ideal () = (.ok b, { t with reader := some b }, ()) ∧ i.Live [(r, b)] w' := by
  obtain ⟨m, hr, hb, hl⟩ := h.live
  dsimp only at hr hl
  cases m with
  | some rb =>
    exact .inr ⟨rb.1, rb.2, w, withReader_of_some hr w, withReader_of_some hb (), hl⟩
  | none =>
    unfold Stream.withReader
    rw [hr, hb, h.position, h.rest_eq]
    dsimp only [Option.map_none]
    rcases i.create s.position s.rest
      (i.live_note (.creatingReader s.block s.position s.rest) hl) with
      ⟨f, w', hc, hc', hl'⟩ | ⟨r, b, w', hc, hc', hl'⟩
    · rw [hc, hc']
      exact .inl ⟨f, w', rfl, rfl, { h with live := ⟨none, hr, hb, hl'⟩ }⟩
    · rw [hc, hc']
      exact .inr ⟨r, b, w', rfl, rfl, hl'⟩

/-- Whether the current packet has bytes in it depends on the bytes in it. -/
theorem any_eq (h : Mirrors i (s, w) t) :
    t.packet.any (!·.unread.isEmpty) = s.packet.any (!·.unread.isEmpty) := by
  have hany {q : Option Packet} :
      q.any (!·.unread.isEmpty) = (q.map Packet.unread).any (!·.isEmpty) := by
    cases q <;> rfl
  rw [hany, h.unread, ← hany]

theorem fill (h : Mirrors i (s, w) t) : ∃ x s' w' t', s.fill src w = (x, s', w') ∧
    t.fill i.ideal () = (x, t', ()) ∧ Mirrors i (s', w') t' := by
  unfold Stream.fill
  rcases h.withReader with ⟨f, w₁, hs, ht, h₁⟩ | ⟨r, b, w₁, hs, ht, hl⟩
  · rw [hs, ht]
    exact ⟨_, s, w₁, t, rfl, rfl, h₁⟩
  rw [hs, ht]
  dsimp only
  rw [h.any_eq]
  by_cases hany : s.packet.any (!·.unread.isEmpty) = true
  · rw [if_pos hany, if_pos hany]
    exact ⟨_, _, w₁, _, rfl, rfl, { h with live := ⟨some (r, b), rfl, rfl, hl⟩ }⟩
  rw [if_neg hany, if_neg hany]
  have hl₂ := live_releasePacket { s with reader := some r } hl
  rw [releasePacket_eq src { s with reader := some r } w₁,
    releasePacket_eq i.ideal { t with reader := some b } ()]
  dsimp only
  rw [h.block]
  obtain ⟨x, y, r', b', w₃, hp, hp', hsame, hl₃⟩ := i.pull s.block emptyPacketLimit hl₂
  rw [hp, hp']
  cases hsame with
  | failed f =>
    exact ⟨_, _, w₃, _, rfl, rfl, { h with
      block := rfl, unread := rfl, live := ⟨some (r', b'), rfl, rfl, hl₃⟩ }⟩
  | nothing =>
    exact ⟨_, _, w₃, _, rfl, rfl, { h with
      block := rfl, unread := rfl, live := ⟨some (r', b'), rfl, rfl, hl₃⟩ }⟩
  | packet hpq =>
    exact ⟨_, _, w₃, _, rfl, rfl,
      { h with block := rfl, unread := congrArg some hpq, live := ⟨some (r', b'), rfl, rfl, hl₃⟩ }⟩

theorem fetch (h : Mirrors i (s, w) t) (n : UInt64) : ∃ x s' w' t', s.fetch src n w = (x, s', w') ∧
    t.fetch i.ideal n () = (x, t', ()) ∧ Mirrors i (s', w') t' := by
  unfold Stream.fetch
  obtain ⟨x, s₁, w₁, t₁, hs, ht, h₁⟩ := h.fill
  rw [hs, ht]
  cases x with
  | error f => exact ⟨_, s₁, w₁, t₁, rfl, rfl, h₁⟩
  | ok =>
    dsimp only
    have hsame : (if s₁.ended = true then none else t₁.packet).map Packet.unread =
        (if s₁.ended = true then none else s₁.packet).map Packet.unread := by
      split
      · rfl
      · exact h₁.unread
    rw [h₁.ended]
    generalize (if s₁.ended = true then none else s₁.packet) = p at hsame ⊢
    generalize (if s₁.ended = true then none else t₁.packet) = q at hsame ⊢
    rcases p with _ | p <;> rcases q with _ | q
    · have h₂ : Mirrors i ({ s₁ with ended := true }, w₁) { t₁ with ended := true } :=
        { h₁ with ended := rfl }
      obtain ⟨x, w', hd, hd', hl⟩ := h₂.dropReader
      dsimp only
      rw [hd, hd']
      cases x with
      | error f =>
        exact ⟨_, _, w', _, rfl, rfl, h₂.dropped hl⟩
      | ok =>
        exact ⟨_, _, w', _, rfl, rfl, h₂.dropped hl⟩
    · simp at hsame
    · simp at hsame
    · have hpq : q.unread = p.unread := Option.some.inj hsame
      have hportion : q.portion n = p.portion n := by rw [Packet.portion, hpq, Packet.portion]
      dsimp only
      rw [Packet.take_portion, Packet.take_portion, hportion, hpq]
      exact ⟨_, _, w₁, _, rfl, rfl,
        { h₁ with unread := rfl, ended := rfl, position := congrArg (· + p.portion n) h₁.position }⟩

theorem readSome (h : Mirrors i (s, w) t) (n : UInt64) : ∃ x s' w' t',
    s.readSome src n w = (x, s', w') ∧ t.readSome i.ideal n () = (x, t', ()) ∧
      Mirrors i (s', w') t' := by
  unfold Stream.readSome
  rw [h.closed]
  by_cases hclosed : s.closed = true
  · rw [if_pos hclosed, if_pos hclosed]
    exact ⟨_, s, w, t, rfl, rfl, h⟩
  rw [if_neg hclosed, if_neg hclosed]
  by_cases hzero : n = 0
  · rw [if_pos hzero, if_pos hzero]
    exact ⟨_, s, w, t, rfl, rfl, h⟩
  rw [if_neg hzero, if_neg hzero]
  exact h.fetch n

/-! ## Moving and closing -/

theorem remaining_eq (h : Mirrors i (s, w) t) : t.remaining = s.remaining := by
  unfold remaining
  rw [h.closed, h.ended, h.rest_eq]

theorem seek (h : Mirrors i (s, w) t) (target : Int64) : ∃ x s' w' t',
    s.seek src target w = (x, s', w') ∧ t.seek i.ideal target () = (x, t', ()) ∧
      Mirrors i (s', w') t' := by
  unfold Stream.seek
  rw [h.closed, h.length, h.block, h.position]
  by_cases hclosed : s.closed = true
  · rw [if_pos hclosed, if_pos hclosed]
    exact ⟨_, s, w, t, rfl, rfl, h⟩
  rw [if_neg hclosed, if_neg hclosed]
  by_cases hneg : target < 0
  · rw [if_pos hneg, if_pos hneg]
    exact ⟨_, s, w, t, rfl, rfl, h⟩
  rw [if_neg hneg, if_neg hneg]
  by_cases hpast : s.length < target.toUInt64
  · rw [if_pos hpast, if_pos hpast]
    exact ⟨_, s, w, t, rfl, rfl, h⟩
  rw [if_neg hpast, if_neg hpast]
  by_cases hsame : target.toUInt64 = s.position
  · rw [if_pos hsame, if_pos hsame]
    exact ⟨_, s, w, t, rfl, rfl, h⟩
  rw [if_neg hsame, if_neg hsame]
  have hrewound : Mirrors i (s.rewound target.toUInt64, w) (t.rewound target.toUInt64) := by
    refine { h with ended := ?_ }
    show (t.ended && decide (t.position ≤ _)) = (s.ended && decide (s.position ≤ _))
    rw [h.ended, h.position]
  obtain ⟨x, w', hs, ht, hl⟩ := hrewound.dropReader
  rw [hs, ht]
  cases x with
  | error f =>
    exact ⟨_, _, w', _, rfl, rfl, hrewound.dropped hl⟩
  | ok =>
    exact ⟨_, _, w', _, rfl, rfl,
      { hrewound.dropped hl with position := rfl }⟩

theorem skip (h : Mirrors i (s, w) t) (n : Int64) : ∃ x s' w' t',
    s.skip src n w = (x, s', w') ∧ t.skip i.ideal n () = (x, t', ()) ∧ Mirrors i (s', w') t' := by
  unfold Stream.skip
  rw [h.remaining_eq]
  cases s.remaining with
  | error f => exact ⟨_, s, w, t, rfl, rfl, h⟩
  | ok left =>
    dsimp only
    by_cases hn : n ≤ 0
    · rw [if_pos hn, if_pos hn]
      exact ⟨_, s, w, t, rfl, rfl, h⟩
    rw [if_neg hn, if_neg hn]
    have hmoved : Mirrors i ({ s with position := s.position + (min left n).toUInt64 }, w)
        { t with position := t.position + (min left n).toUInt64 } :=
      { h with position := congrArg (· + (min left n).toUInt64) h.position }
    obtain ⟨x, w', hs, ht, hl⟩ := hmoved.dropReader
    rw [hs, ht]
    cases x with
    | error f =>
      exact ⟨_, _, w', _, rfl, rfl, hmoved.dropped hl⟩
    | ok =>
      exact ⟨_, _, w', _, rfl, rfl, hmoved.dropped hl⟩

theorem close (h : Mirrors i (s, w) t) : ∃ x s' w' t', s.close src w = (x, s', w') ∧
    t.close i.ideal () = (x, t', ()) ∧ Mirrors i (s', w') t' := by
  unfold Stream.close
  rw [h.closed]
  by_cases hclosed : s.closed = true
  · rw [if_pos hclosed, if_pos hclosed]
    exact ⟨_, s, w, t, rfl, rfl, h⟩
  rw [if_neg hclosed, if_neg hclosed]
  have hclosing : Mirrors i ({ s with closed := true }, w) { t with closed := true } :=
    { h with closed := rfl }
  obtain ⟨x, w₁, hs, ht, hl⟩ := hclosing.dropReader
  obtain ⟨y, w', hshut, hshut', hl'⟩ := i.shutDown hl
  simp only [hs, ht, hshut, hshut']
  cases y with
  | error f =>
    exact ⟨_, _, w', _, rfl, rfl, hclosing.dropped hl'⟩
  | ok =>
    exact ⟨_, _, w', _, rfl, rfl, hclosing.dropped hl'⟩

/-! ## Positioned reads -/

/-- A positioned read ends the same, and the stream still looks like the one over the ideal
source. -/
theorem readAt (h : Mirrors i (s, w) t) (target : Int64) (count : UInt64) : ∃ x b w',
    s.readAt src target count w = (x, b, w') ∧ t.readAt i.ideal target count () = (x, b, ()) ∧
      Mirrors i (s, w') t := by
  unfold Stream.readAt
  rw [h.closed, h.length, h.block]
  by_cases hclosed : s.closed = true
  · rw [if_pos hclosed, if_pos hclosed]
    exact ⟨_, _, w, rfl, rfl, h⟩
  rw [if_neg hclosed, if_neg hclosed]
  by_cases hzero : count = 0
  · rw [if_pos hzero, if_pos hzero]
    exact ⟨_, _, w, rfl, rfl, h⟩
  rw [if_neg hzero, if_neg hzero]
  by_cases hpast : (target < 0 || s.length ≤ target.toUInt64) = true
  · rw [if_pos hpast, if_pos hpast]
    exact ⟨_, _, w, rfl, rfl, h⟩
  rw [if_neg hpast, if_neg hpast]
  -- the reader of the stream stays in use behind the one of the read
  obtain ⟨m, hr, hb, hl⟩ := h.live
  have hafter {w' : W} (hl' : i.Live m.toList w') : Mirrors i (s, w') t :=
    { h with live := ⟨m, hr, hb, hl'⟩ }
  rcases i.create target.toUInt64 count hl with
    ⟨f, w₁, hc, hc', hl₁⟩ | ⟨r, b, w₁, hc, hc', hl₁⟩
  · rw [hc, hc']
    exact ⟨_, _, w₁, rfl, rfl, hafter hl₁⟩
  obtain ⟨x, got, r', b', w₂, hg, hg', hl₂⟩ :=
    i.gather s.block count.toNat emptyPacketLimit [] hl₁
  obtain ⟨y, r'', b'', w₃, hd, hd', hl₃⟩ := i.close hl₂
  simp only [hc, hc', hg, hg']
  cases x with
  | error f =>
    simp only [hd, hd']
    cases y with
    | error g => exact ⟨_, _, _, rfl, rfl, hafter (i.live_note _ hl₃)⟩
    | ok => exact ⟨_, _, w₃, rfl, rfl, hafter hl₃⟩
  | ok =>
    simp only [hd, hd']
    cases y with
    | error f => exact ⟨_, _, w₃, rfl, rfl, hafter hl₃⟩
    | ok => exact ⟨_, _, w₃, rfl, rfl, hafter hl₃⟩

/-! ## Calls and runs -/

theorem destination?_eq (h : Mirrors i (s, w) t) (memory : Option Destination)
    (offset count : UInt64) :
    t.destination? memory offset count = s.destination? memory offset count := by
  unfold destination?
  rw [h.closed]

end Mirrors

/-- **A call ends the same** as over the ideal source. -/
theorem Mirrors.step {p : Stream R × W} (h : Mirrors i p t) (op : Op) :
    (Stream.step src op p).outcome = (Stream.step i.ideal op (t, ())).outcome ∧
      Mirrors i (Stream.step src op p).after (Stream.step i.ideal op (t, ())).after.1 := by
  obtain ⟨s, w⟩ := p
  cases op with
  | readByte =>
    obtain ⟨x, s', w', t', hs, ht, h'⟩ := h.readSome 1
    rw [step_readByte hs, step_readByte ht]
    exact ⟨rfl, h'⟩
  | read memory offset count =>
    cases hd : s.destination? memory offset count with
    | error f =>
      rw [step_read_refused hd, step_read_refused ((h.destination?_eq ..).trans hd)]
      exact ⟨rfl, h⟩
    | ok d =>
      obtain ⟨x, s', w', t', hs, ht, h'⟩ := h.readSome count
      rw [step_read hd hs, step_read ((h.destination?_eq ..).trans hd) ht]
      exact ⟨rfl, h'⟩
  | readAt target memory offset count =>
    obtain ⟨x, b, w', hs, ht, h'⟩ := h.readAt target count
    simp only [Stream.step, perform, readAtInto, h.destination?_eq]
    cases s.destination? memory offset count with
    | error f => exact ⟨rfl, h⟩
    | ok d =>
      simp only [hs, ht]
      exact ⟨trivial, h'⟩
  | remaining =>
    simp only [Stream.step, perform, h.remaining_eq]
    exact ⟨trivial, h⟩
  | position =>
    simp only [Stream.step, perform, h.position]
    exact ⟨trivial, h⟩
  | seek target =>
    obtain ⟨x, s', w', t', hs, ht, h'⟩ := h.seek target
    simp only [Stream.step, perform, hs, ht]
    exact ⟨trivial, h'⟩
  | skip n =>
    obtain ⟨x, s', w', t', hs, ht, h'⟩ := h.skip n
    simp only [Stream.step, perform, hs, ht]
    exact ⟨trivial, h'⟩
  | close =>
    obtain ⟨x, s', w', t', hs, ht, h'⟩ := h.close
    simp only [Stream.step, perform, hs, ht]
    exact ⟨trivial, h'⟩

/-- The ends of the calls of a run. -/
def outcomes {W R : Type} [Journaled W] (src : Source W R) (ops : List Op) (p : Stream R × W) :
    List Outcome :=
  (history src ops p).map Step.outcome

theorem outcomes_cons {W R : Type} [Journaled W] (src : Source W R) (op : Op) (ops : List Op)
    (p : Stream R × W) : outcomes src (op :: ops) p =
      (Stream.step src op p).outcome :: outcomes src ops (Stream.step src op p).after := rfl

/-- A run ends call by call as over the ideal source. -/
theorem Mirrors.outcomes_eq {p : Stream R × W} (h : Mirrors i p t) (ops : List Op) :
    outcomes src ops p = outcomes i.ideal ops (t, ()) := by
  induction ops generalizing p t with
  | nil => rfl
  | cons op ops ih =>
    obtain ⟨houtcome, hafter⟩ := h.step op
    rw [outcomes_cons, outcomes_cons, houtcome, ih hafter]

/-- A stream at the start of a block looks like one over the ideal source. -/
theorem mirrors_start (hw : i.Live [] w) (block length : UInt64) :
    Mirrors i (start block length, w) (start block length) where
  block := rfl
  length := rfl
  position := rfl
  closed := rfl
  ended := rfl
  unread := rfl
  live := ⟨none, rfl, rfl, hw⟩

/-! ## Leaving out positioned reads -/

/-- The entries of a list that are kept, by marks that go along with them; without a mark an entry
is kept. -/
def kept {α : Type} : List Bool → List α → List α
  | true :: marks, a :: l => a :: kept marks l
  | false :: marks, _ :: l => kept marks l
  | _, l => l

/-- A positioned read does nothing to a stream, nor to surroundings that are none. -/
theorem step_visit {C : Type} (src : Source Unit C) {op : Op} (hop : op.visits = true)
    (t : Stream C) : (Stream.step src op (t, ())).after = (t, ()) := by
  cases op with
  | readAt => rfl
  | _ => simp [Op.visits] at hop

/-- Over the ideal source positioned reads are left out for nothing. -/
theorem outcomes_kept {C : Type} (src : Source Unit C) {ops : List Op} {marks : List Bool}
    (hmarks : ∀ x ∈ ops.zip marks, x.2 = false → x.1.visits = true) (t : Stream C) :
    outcomes src (kept marks ops) (t, ()) = kept marks (outcomes src ops (t, ())) := by
  induction ops generalizing marks t with
  | nil =>
    cases marks with
    | nil => rfl
    | cons mark marks => cases mark <;> rfl
  | cons op ops ih =>
    cases marks with
    | nil => rfl
    | cons mark marks =>
      rw [List.zip_cons_cons, List.forall_mem_cons] at hmarks
      cases mark with
      | true =>
        rw [kept, outcomes_cons, outcomes_cons, kept]
        exact congrArg _ (ih hmarks.2 _)
      | false =>
        rw [kept, outcomes_cons, kept, step_visit src (hmarks.1 rfl)]
        exact ih hmarks.2 t

/-- **Positioned reads do not interfere.**  Over a source whose readers are independent, a client
may leave out any of the positioned reads of a run, those that fail among them, and all other calls
end as before.  A positioned read leaves the stream as it is, whatever becomes of it, and whatever
is called from then on ends as it would have ended without it. -/
theorem undisturbed_history (i : src.Independent) (hw : i.Live [] w) (block length : UInt64)
    {ops : List Op} {marks : List Bool}
    (hmarks : ∀ x ∈ ops.zip marks, x.2 = false → x.1.visits = true) :
    outcomes src (kept marks ops) (start block length, w) =
        kept marks (outcomes src ops (start block length, w)) ∧
      ∀ st ∈ history src ops (start block length, w), st.op.visits = true →
        st.after.1 = st.before.1 ∧
        ∀ ops', outcomes src ops' st.after = outcomes src ops' st.before := by
  have hstart := mirrors_start (i := i) hw block length
  constructor
  · rw [hstart.outcomes_eq, hstart.outcomes_eq, outcomes_kept i.ideal hmarks]
  · refine forall_mem_history (I := fun p => ∃ t, Mirrors i p t) ?_ ⟨_, hstart⟩ ops
    rintro op p ⟨t, h⟩
    obtain ⟨-, hafter⟩ := h.step op
    refine ⟨fun hop => ⟨?_, fun ops' => ?_⟩, _, hafter⟩
    · cases op with
      | readAt => rfl
      | _ => simp [Stream.step, Op.visits] at hop
    · have hop : op.visits = true := hop
      rw [step_visit i.ideal hop] at hafter
      exact (hafter.outcomes_eq ops').trans (h.outcomes_eq ops').symm

/-- A block of six bytes that comes in pairs.  Readers go on beyond their ranges, every other packet
is empty, and the fifth fails. -/
def rough : SourceScript where
  block := [10, 11, 12, 13, 14, 15]
  readers := [{ sizes := [2, 0, 2, 0, 2], unbounded := true, failAt := some 4 }]

/-- Reads in sequence, and between them positioned reads: one that obtains a packet that is too
large, one whose reader fails, one of a single pair. -/
def strides : List Op :=
  [.readByte, .readAt 2 (some ⟨1, [0]⟩) 0 1, .readByte,
    .readAt 0 (some ⟨6, [0, 0, 0, 0, 0, 0]⟩) 0 6, .read (some ⟨4, [0, 0, 0, 0]⟩) 0 4,
    .readAt 3 (some ⟨2, [0, 0]⟩) 0 2, .readByte, .remaining, .close]

/-- The marks that leave out the positioned reads that fail. -/
def sparing : List Bool := [true, false, true, false]

/-- All its readers have the same script. -/
def roughIndependent : (rough.source (W := Site)).Independent :=
  rough.independent (by decide) rfl

theorem undisturbed_history_rough :
    roughIndependent.Live [] {} ∧ (∀ x ∈ strides.zip sparing, x.2 = false → x.1.visits = true) ∧
    (outcomes (rough.source (W := Site)) (kept sparing strides) (start 7 6, {}) =
        kept sparing (outcomes (rough.source (W := Site)) strides (start 7 6, {})) ∧
      ∀ st ∈ history (rough.source (W := Site)) strides (start 7 6, {}), st.op.visits = true →
        st.after.1 = st.before.1 ∧
        ∀ ops', outcomes (rough.source (W := Site)) ops' st.after =
          outcomes rough.source ops' st.before) := by
  have hmarks : ∀ x ∈ strides.zip sparing, x.2 = false → x.1.visits = true := by decide
  have hlive : roughIndependent.Live [] {} := fun x hx => absurd hx List.not_mem_nil
  exact ⟨hlive, hmarks, undisturbed_history roughIndependent hlive 7 6 hmarks⟩

example : (outcomes (rough.source (W := Site)) strides (start 7 6, {})).map
      (fun o => o.result.toOption) =
    [some (.byte (some 10)), none, some (.byte (some 11)), none, some (.count (some 2)),
      some (.count (some 2)), none, some (.amount 2), some .done] := by
  cbv

end Stream
end BlockAccess
