import BlockAccess.Proofs.Stream.Blame
import BlockAccess.Proofs.Stream.Failing

/-!
# The end of a stream

A read in sequence that meets the end says so, and from then on the stream is at its end until it is
moved back or closed.  `Step.Over` says what calls give there, and `sticky_history` that all of them
do, whatever the source does.  Nothing is left, nothing is passed over, and no read obtains any bytes
again, even from a reader that has some.

A read at the end does not keep away from the source, though.  It makes a reader, pulls a packet, and
gives both up before it says that there is nothing.  So it says so only if all of this goes well,
which shows in a reader that is closed cleanly at last; otherwise it fails with the failure of the
source.  In the same way passing over no bytes fails if a reader was left behind that cannot be
closed.
-/

namespace BlockAccess
namespace Stream

variable {W R : Type} [Journaled W]

/-! ## Calls at the end -/

/-- Reads in sequence that are in order and ask for at least one byte. -/
def Op.Wants : Op → Prop
  | .readByte => True
  | .read (some d) offset count => count ≠ 0 ∧ offset.toNat + count.toNat ≤ d.size.toNat
  | _ => False

/-- A move to a place in front of the position. -/
def Step.GoesBack (st : Step W R) : Prop :=
  ∃ target, st.op = .seek target ∧ 0 ≤ target.toInt ∧
    target.toInt < st.before.1.position.toNat

/-- What a call gives on a stream that is at its end. -/
structure Step.Over (src : Source W R) (st : Step (Observed W) (Numbered R)) : Prop where
  /-- A read says that there is nothing, after a reader was closed cleanly; or it fails, and what is
  to blame was seen last. -/
  reads : st.op.Wants →
    st.outcome.result = .ok (st.op.answer none) ∧
        st.before.2.SawLast (Event.ClosesReader true) st.after.2 ∨
      ∃ f, st.outcome.result = .error f ∧
        st.before.2.SawLast (src.Blames st.before.1.block f) st.after.2
  remaining : st.after.1.remaining = .ok 0 ∧
    (st.op = .remaining → st.outcome.result = .ok (.amount 0))
  /-- Nothing is passed over.  It fails if a reader was left behind that cannot be closed. -/
  skips : ∀ n, st.op = .skip n →
    st.outcome.result = .ok (.amount 0) ∨
      st.before.1.reader.isSome ∧ ∃ f, st.outcome.result = .error f ∧
        st.before.2.SawLast (Event.ClosesReader false) st.after.2
  position : st.op.reads = true ∨ (∃ n, st.op = .skip n) →
    st.after.1.position = st.before.1.position

/-- A stream at its end. -/
structure AtEnd (s : Stream R) : Prop where
  isOpen : s.closed = false
  ended : s.ended = true
  tidy : s.Tidy

omit [Journaled W] in
theorem AtEnd.remaining {s : Stream R} (h : s.AtEnd) : s.remaining = .ok 0 :=
  remaining_of_ended h.isOpen h.ended

/-! ### Reads -/

/-- A read that is in order fetches. -/
theorem fetch_of_wants (src : Source W R) {op : Op} (hop : op.Wants) {p : Stream R × W}
    (hopen : p.1.closed = false) :
    ∃ n x, p.1.fetch src n p.2 = (x, (step src op p).after) ∧
      (step src op p).outcome.result = x.map op.answer := by
  have hread (n : UInt64) (hn : n ≠ 0) : p.1.readSome src n p.2 = p.1.fetch src n p.2 := by
    rw [readSome, if_neg (by simp [hopen]), if_neg hn]
  unfold Op.Wants at hop
  split at hop
  · rcases hr : p.1.readSome src 1 p.2 with ⟨x, q⟩
    rw [step_readByte hr]
    exact ⟨1, x, (hread 1 (by decide)).symm.trans hr, rfl⟩
  · next d offset count =>
    have hd : p.1.destination? (some d) offset count = .ok d := by
      simp [destination?, hopen, d.admits_iff, hop.2]
    rcases hr : p.1.readSome src count p.2 with ⟨x, q⟩
    rw [step_read hd hr]
    exact ⟨count, x, (hread count hop.1).symm.trans hr, rfl⟩
  · exact absurd hop id

/-- A read that says it met the end fetched nothing. -/
theorem fetch_of_answer_none {src : Source W R} {op : Op} (hop : op.reads = true)
    {p : Stream R × W} (hs : p.1.Tidy)
    (hend : (step src op p).outcome.result = .ok (op.answer none)) :
    p.1.closed = false ∧ ∃ n, p.1.fetch src n p.2 = (.ok none, (step src op p).after) := by
  cases op with
  | readByte =>
    rcases hr : p.1.readSome src 1 p.2 with ⟨x, s', w'⟩
    rw [step_readByte hr] at hend ⊢
    rcases readSome_cases hr with ⟨-, rfl, -⟩ | ⟨-, hzero, -⟩ | ⟨hopen, hn, hf⟩
    · simp [Except.map] at hend
    · exact absurd hzero (by decide)
    refine ⟨hopen, 1, ?_⟩
    cases fetched hs hf with
    | failed | endFailed => simp [Except.map] at hend
    | ended => exact hf
    | bytes r p b _ _ hpos =>
      -- a byte that was read is told
      obtain ⟨c, rest, rfl⟩ := List.exists_cons_of_length_pos (hpos hn)
      simp [Except.map, Op.answer] at hend
  | read memory offset count =>
    cases hd : p.1.destination? memory offset count with
    | error f =>
      rw [step_read_refused hd] at hend
      simp at hend
    | ok d =>
      rcases hr : p.1.readSome src count p.2 with ⟨x, s', w'⟩
      rw [step_read hd hr] at hend ⊢
      rcases readSome_cases hr with ⟨-, rfl, -⟩ | ⟨-, -, rfl, -⟩ | ⟨hopen, -, hf⟩
      · simp [Except.map] at hend
      · simp [Except.map, Op.answer] at hend
      refine ⟨hopen, count, ?_⟩
      rcases x with f | _ | b
      · simp [Except.map] at hend
      · exact hf
      · simp [Except.map, Op.answer] at hend
  | _ => simp [Op.reads] at hop

/-- A read that says it met the end leaves the stream at its end. -/
theorem atEnd_of_answer_none {src : Source W R} {op : Op} (hop : op.reads = true)
    {p : Stream R × W} (hs : p.1.Tidy)
    (hend : (step src op p).outcome.result = .ok (op.answer none)) :
    (step src op p).after.1.AtEnd := by
  obtain ⟨hopen, n, hf⟩ := fetch_of_answer_none hop hs hend
  rcases hafter : (step src op p).after with ⟨s', w'⟩
  rw [hafter] at hf
  cases fetched hs hf with
  | ended => exact ⟨hopen, rfl, fun _ => rfl⟩

/-- At the end, a fetch obtains nothing.  It says so after its reader was closed cleanly. -/
theorem AtEnd.fetch {src : Source W R} {n : UInt64} {s s' : Stream (Numbered R)}
    {o o' : Observed W} {x : Except Failure (Option Bytes)} (hs : s.AtEnd)
    (h : s.fetch src.observed n o = (x, s', o')) :
    x = .ok none ∧ o.SawLast (Event.ClosesReader true) o' ∨
      ∃ f, x = .error f ∧ o.SawLast (src.Blames s.block f) o' := by
  cases hx : x with
  | error f =>
    subst hx
    exact .inr ⟨f, rfl, blames_fetch h⟩
  | ok b =>
    subst hx
    left
    unfold Stream.fetch at h
    split at h
    · simp at h
    next s₁ o₁ hfill =>
    obtain ⟨before, hbefore, -⟩ :=
      (upholds_asked src s.position s.rest o.events.toList).fill (.now _ _ o) hfill
    obtain ⟨hs₁, hfull, -⟩ := fill_snd hs.tidy hfill
    obtain ⟨r, hr⟩ := Option.isSome_iff_exists.1 (hfull rfl).1
    have hended : s₁.ended = true := by
      rw [hs₁]
      exact hs.ended
    rw [if_pos hended] at h
    dsimp only at h
    split at h
    · simp at h
    · next s₂ o₂ hdrop =>
      simp only [Prod.mk.injEq, Except.ok.injEq] at h
      obtain ⟨rfl, -, rfl⟩ := h
      have hclosed := (saw_dropReader (s := { s₁ with ended := true }) s.block hr hdrop).1
      exact ⟨rfl, Observed.Saw.sawLast hbefore (hclosed.imp fun e he => ⟨r.number, he⟩)⟩

/-- A read at the end neither moves nor leaves it. -/
theorem AtEnd.step_reads {src : Source W R} {op : Op} (hop : op.reads = true) {p : Stream R × W}
    (hp : p.1.AtEnd) :
    (step src op p).after.1.AtEnd ∧ (step src op p).after.1.position = p.1.position := by
  rcases reads_cases src hop hp.tidy with ⟨hafter, -⟩ | ⟨n, x, -, -, hf, -⟩
  · rw [hafter]
    exact ⟨hp, rfl⟩
  rcases hafter : (step src op p).after with ⟨s', w'⟩
  rw [hafter] at hf
  cases fetched hp.tidy hf with
  | failed f r => exact ⟨⟨hp.isOpen, hp.ended, fun _ => rfl⟩, rfl⟩
  | endFailed | ended => exact ⟨⟨hp.isOpen, rfl, fun _ => rfl⟩, rfl⟩
  | bytes r k b hended => exact absurd (hended.symm.trans hp.ended) Bool.false_ne_true

/-! ### Moving -/

theorem min_zero_left {n : Int64} (hn : 0 < n.toInt) : min 0 n = 0 := by
  rw [← Int64.toInt_inj, Offset.toInt_min, Int64.toInt_zero]
  exact Int.min_eq_left (Int.le_of_lt hn)

omit [Journaled W] in
/-- Passing over bytes at the end passes over none. -/
theorem AtEnd.skip {src : Source W R} {n : Int64} {s s' : Stream (Numbered R)}
    {o o' : Observed W} {x : Except Failure Int64} (hs : s.AtEnd)
    (h : s.skip src.observed n o = (x, s', o')) :
    x = .ok 0 ∨ s.reader.isSome ∧ ∃ f, x = .error f ∧ o.SawLast (Event.ClosesReader false) o' := by
  unfold Stream.skip at h
  rw [hs.remaining] at h
  dsimp only at h
  split at h
  · exact .inl (congrArg Prod.fst h).symm
  next hn =>
  rw [Int64.le_iff_toInt_le, Int64.toInt_zero] at hn
  rw [min_zero_left (Int.lt_of_not_ge hn)] at h
  split at h
  · next f s₁ o₁ hdrop =>
    obtain ⟨hreader, hlast⟩ := blames_dropReader s.block hdrop
    simp only [Prod.mk.injEq] at h
    obtain ⟨rfl, -, rfl⟩ := h
    exact .inr ⟨hreader, f, rfl, hlast.imp fun _ he => he.1⟩
  · exact .inl (congrArg Prod.fst h).symm

/-- Only closing and going back lead away from the end. -/
theorem AtEnd.step {src : Source W R} {op : Op} {p : Stream R × W} (hp : p.1.AtEnd)
    (hclose : op ≠ .close) (hback : ¬(step src op p).GoesBack) : (step src op p).after.1.AtEnd := by
  cases op with
  | readByte | read => exact (hp.step_reads rfl).1
  | readAt | remaining | position => exact hp
  | seek target =>
    rcases h : p.1.seek src target p.2 with ⟨x, s', w'⟩
    simp only [Stream.step, perform, h]
    rcases seek_cases h with rfl | ⟨-, hstart, -, hmoved⟩
    · exact hp
    have hle : p.1.position ≤ target.toUInt64 := by
      rw [UInt64.le_iff_toNat_le]
      by_contra hlt
      have hnat := Offset.toNat_toUInt64 hstart
      exact hback ⟨target, rfl, hstart, by show target.toInt < p.1.position.toNat; omega⟩
    have hended : (p.1.rewound target.toUInt64).ended = true := by
      simp [rewound, hp.ended, hle]
    rcases hmoved with ⟨-, rfl⟩ | ⟨-, rfl⟩
    · exact ⟨hp.isOpen, hended, fun _ => rfl⟩
    · exact ⟨hp.isOpen, hended, fun _ => rfl⟩
  | skip n =>
    rcases h : p.1.skip src n p.2 with ⟨x, s', w'⟩
    simp only [Stream.step, perform, h]
    rcases skip_cases h with ⟨rfl, -⟩ | ⟨left, -, -, -, rfl⟩
    · exact hp
    · exact ⟨hp.isOpen, hp.ended, fun _ => rfl⟩
  | close => exact absurd rfl hclose

/-! ## Runs -/

theorem AtEnd.step_over (src : Source W R) {op : Op} {p : Stream (Numbered R) × Observed W}
    (hp : p.1.AtEnd) (hclose : op ≠ .close) (hback : ¬(Stream.step src.observed op p).GoesBack) :
    (Stream.step src.observed op p).Over src where
  reads hwants := by
    obtain ⟨n, x, hf, hresult⟩ := fetch_of_wants src.observed hwants hp.isOpen
    rcases hp.fetch hf with ⟨rfl, hlast⟩ | ⟨f, rfl, hlast⟩
    · exact .inl ⟨hresult, hlast⟩
    · exact .inr ⟨f, hresult, hlast⟩
  remaining := by
    refine ⟨(hp.step hclose hback).remaining, ?_⟩
    rintro hop
    obtain rfl : op = .remaining := hop
    show p.1.remaining.map Answer.amount = .ok (.amount 0)
    rw [hp.remaining]
    rfl
  skips n hn := by
    obtain rfl : op = .skip n := hn
    rcases h : p.1.skip src.observed n p.2 with ⟨x, s', o'⟩
    simp only [Stream.step, perform, h]
    rcases hp.skip h with rfl | ⟨hreader, f, rfl, hlast⟩
    · exact .inl rfl
    · exact .inr ⟨hreader, f, rfl, hlast⟩
  position := by
    rintro (hop | ⟨n, hn⟩)
    · exact (hp.step_reads hop).2
    · obtain rfl : op = .skip n := hn
      exact (unmoved_skip src.observed n hp.remaining).1

/-- **Who has met the end stays there.**  For every source and every run of calls: after a read in
sequence that said it met the end, and as long as the stream is neither moved back nor closed, calls
give what they give at the end. -/
theorem sticky_history (src : Source W R) (w : W) (block length : UInt64) (ops ops' : List Op)
    {op : Op} (hop : op.reads = true)
    (hend : (step src.observed op
      (run src.observed ops (start block length, { inner := w }))).outcome.result =
        .ok (op.answer none))
    (hstay : ∀ st ∈ history src.observed ops'
      (run src.observed (ops ++ [op]) (start block length, { inner := w })),
        st.op ≠ .close ∧ ¬st.GoesBack) :
    ∀ st ∈ history src.observed ops'
      (run src.observed (ops ++ [op]) (start block length, { inner := w })), st.Over src := by
  have htidy : (run src.observed ops (start block length, { inner := w })).1.Tidy :=
    run_keeps (I := fun p => p.1.Tidy) (fun op _ hp => (step_tidy _ op hp).1) (fun _ => rfl) ops
  have hatEnd : (run src.observed (ops ++ [op]) (start block length, { inner := w })).1.AtEnd := by
    rw [run_append]
    exact atEnd_of_answer_none hop htidy hend
  exact forall_mem_history_imp (I := fun p => p.1.AtEnd)
    (fun op p hp hst => ⟨hp.step_over src hst.1 hst.2, hp.step hst.1 hst.2⟩) hatEnd hstay

/-! ## Ends that do not hold -/

/-- A block of five bytes whose first reader stops at once.  There is no second one. -/
def lapsed : SourceScript where
  block := [1, 2, 3, 4, 5]
  readers := [{ endAt := some 0 }]
  failingCreates := [1]

/-- The same block.  The second reader would deliver it, but cannot be closed. -/
def clinging : SourceScript where
  block := [1, 2, 3, 4, 5]
  readers := [{ endAt := some 0 }, { closeFails := true }]

/-- A client that met the end and reads again fails if no reader can be made, if the reader that is
made fails, and if it cannot be closed.  After the second of these, passing over a byte fails as
well. -/
theorem not_sticky :
    (∃ f, (step lapsed.source.observed .readByte (reached lapsed [])).outcome.result =
        .ok (.byte none) ∧
      (step lapsed.source.observed .readByte (reached lapsed [.readByte])).outcome.result =
        .error f) ∧
    (∃ f, (step failingSecond.source.observed .readByte (reached failingSecond [])).outcome.result =
        .ok (.byte none) ∧
      (step failingSecond.source.observed .readByte
        (reached failingSecond [.readByte])).outcome.result = .error f) ∧
    (∃ f, (step clinging.source.observed .readByte (reached clinging [])).outcome.result =
        .ok (.byte none) ∧
      (step clinging.source.observed .readByte (reached clinging [.readByte])).outcome.result =
        .error f) ∧
    ∃ f, (step failingSecond.source.observed (.skip 1)
      (reached failingSecond [.readByte, .readByte])).outcome.result = .error f :=
  ⟨⟨_, rfl, rfl⟩, ⟨_, rfl, rfl⟩, ⟨_, rfl, rfl⟩, ⟨_, rfl⟩⟩

/-- A client that met the end, moves on and reads again, with a reader that fails. -/
theorem sticky_history_failingSecond :
    Op.reads .readByte = true ∧
      (step failingSecond.source.observed .readByte
        (run failingSecond.source.observed [] (start 1 5, { inner := ({} : Site) }))).outcome.result =
          .ok (Op.answer .readByte none) ∧
      (∀ st ∈ history failingSecond.source.observed [.seek 3, .readByte]
        (run failingSecond.source.observed ([] ++ [.readByte]) (start 1 5, { inner := ({} : Site) })),
          st.op ≠ .close ∧ ¬st.GoesBack) ∧
      ∀ st ∈ history failingSecond.source.observed [.seek 3, .readByte]
        (run failingSecond.source.observed ([] ++ [.readByte]) (start 1 5, { inner := ({} : Site) })),
          st.Over failingSecond.source := by
  have hstay : ∀ st ∈ history failingSecond.source.observed [.seek 3, .readByte]
      (run failingSecond.source.observed ([] ++ [.readByte]) (start 1 5, { inner := ({} : Site) })),
        st.op ≠ .close ∧ ¬st.GoesBack := by
    intro st hst
    rcases List.mem_cons.1 hst with rfl | hst
    · refine ⟨nofun, ?_⟩
      rintro ⟨target, htarget, -, hlt⟩
      obtain rfl : 3 = target := Op.seek.inj htarget
      exact absurd hlt (by decide)
    · rw [List.mem_singleton.1 hst]
      exact ⟨nofun, fun ⟨target, htarget, _⟩ => nomatch htarget⟩
  exact ⟨rfl, rfl, hstay,
    sticky_history failingSecond.source ({} : Site) 1 5 [] [.seek 3, .readByte] rfl rfl hstay⟩

end Stream
end BlockAccess
