import BlockAccess.Proofs.Stream.Bounds

/-!
# What a failure leaves of the cursor

A client that had a call fail wants to know where the stream stands: at which position, and how much
is left.  `Step.Unmoved` says how far a failed call leaves both as they were, and `unmoved_history`
that every failed call of every run does so, whatever the source does.

* A read in sequence never moves.  What is left changes in one case: the reader said that it was at
  its end, and could not be closed after that.  The stream is at its end then, because the end was
  met.
* Going to another place leaves the position.  What is left changes only if the end had been met
  and the place is further back, since going back lifts the end before the reader is given up.
* Passing over bytes moves before the reader is given up, so a failure leaves the stream where it
  was only if there was nothing to pass over.

The last two are said in the weak form on purpose: nothing is claimed about the cases left out.
-/

namespace BlockAccess
namespace Stream

variable {W R : Type} [Journaled W]

/-- What a failed call leaves of position and bytes left. -/
structure Step.Unmoved (st : Step (Observed W) (Numbered R)) : Prop where
  reads : st.op.reads = true → st.after.1.position = st.before.1.position ∧
    (st.after.1.remaining = st.before.1.remaining ∨
      st.after.1.remaining = .ok 0 ∧
        ∃ es k, st.events = es ++ [.exhausted k, .readerClosed k false])
  seeks : ∀ target, st.op = .seek target → st.after.1.position = st.before.1.position ∧
    (st.after.1.remaining = st.before.1.remaining ∨
      st.before.1.ended = true ∧ 0 ≤ target.toInt ∧
        target.toInt < st.before.1.position.toNat)
  skips : ∀ n, st.op = .skip n → st.before.1.remaining = .ok 0 →
    st.after.1.position = st.before.1.position ∧ st.after.1.remaining = .ok 0

/-! ## The events of meeting the end -/

section Events

variable {src : Source W R} {o o' : Observed W}

/-- A reader that had nothing to pull said so last. -/
theorem events_of_pull {block : UInt64} {budget : Nat} {r r' : Numbered R}
    (h : src.observed.pull block budget r o = (.ok none, r', o')) :
    ∃ es, o'.events.toList = o.events.toList ++ es ++ [.exhausted r'.number] := by
  induction budget generalizing r o with
  | zero => simp [Source.pull] at h
  | succ budget ih =>
    unfold Source.pull at h
    split at h
    · next p r₁ o₁ hnext =>
      split at h
      · -- an empty packet: it was handed out and given back, and pulling goes on
        obtain ⟨es, hes⟩ := ih h
        obtain ⟨before, hbefore, -⟩ :=
          (upholds_asked src 0 0 o.events.toList).next (r := r) (.now 0 0 o) hnext
        refine ⟨before ++ [.released p.serial p.size p.readable] ++ es, ?_⟩
        have hreleased : (src.observed.release p
            (note (.emptyPacket (src.observed.position r₁) block) o₁)).events.toList =
              o₁.events.toList ++ [.released p.serial p.size p.readable] :=
          Array.toList_push
        rw [hes, hreleased, hbefore]
        simp only [List.append_assoc]
      · simp at h
    · next x r₁ o₁ hnot hnext =>
      simp only [Prod.mk.injEq] at h
      obtain ⟨rfl, rfl, rfl⟩ := h
      simp only [Source.observed] at hnext
      split at hnext
      · simp at hnext
      · simp only [Prod.mk.injEq] at hnext
        obtain ⟨-, rfl, rfl⟩ := hnext
        exact ⟨[], by simp [Observed.see, Observed.withInner]⟩
      · simp at hnext

/-- A stream that is left without a packet by filling has a reader that just said it was at its
end. -/
theorem events_of_fill {s s' : Stream (Numbered R)}
    (h : s.fill src.observed o = (.ok (), s', o')) (hnone : s'.packet = none) :
    ∃ r es, s'.reader = some r ∧
      o'.events.toList = o.events.toList ++ es ++ [.exhausted r.number] := by
  have hu := upholds_asked src s.position s.rest o.events.toList
  unfold fill at h
  split at h
  · simp at h
  next r s₁ o₁ hreader =>
  have hasked := hu.withReader (.now _ _ o) hreader
  split at h
  · next hany =>
    simp only [Prod.mk.injEq] at h
    obtain ⟨-, rfl, -⟩ := h
    simp [hnone] at hany
  have hrel := hu.releasePacket (s := s₁) hasked
  split at h
  next s₂ o₂ h₂ =>
  rw [h₂] at hrel
  obtain ⟨before, hbefore, -⟩ := hrel
  split at h
  · simp at h
  next p r' o₃ hpull =>
  simp only [Prod.mk.injEq] at h
  obtain ⟨-, rfl, rfl⟩ := h
  dsimp only at hnone
  subst hnone
  obtain ⟨es, hes⟩ := events_of_pull hpull
  exact ⟨r', before ++ es, rfl, by rw [hes, hbefore, List.append_assoc _ before es]⟩

omit [Journaled W] in
/-- A reader that could not be closed is told last. -/
theorem events_of_dropReader {s s' : Stream (Numbered R)} {r : Numbered R} {f : Failure}
    (hpacket : s.packet = none) (hreader : s.reader = some r)
    (h : s.dropReader src.observed o = (.error f, s', o')) :
    o'.events.toList = o.events.toList ++ [.readerClosed r.number false] := by
  have hrel : s.releasePacket src.observed o = (s, o) := by
    rw [releasePacket, hpacket]
  unfold dropReader at h
  rw [hrel] at h
  simp only [hreader, Source.observed, Prod.mk.injEq] at h
  obtain ⟨hx, -, rfl⟩ := h
  simp [Observed.see, Observed.withInner, hx, Source.succeeded]

/-- A read that fails and leaves the stream at its end, where it was not before, met the end and
could not close its reader. -/
theorem events_of_fetch {n : UInt64} {s s' : Stream (Numbered R)} {f : Failure}
    (hs : s.Tidy) (hbefore : s.ended = false) (hafter : s'.ended = true)
    (h : s.fetch src.observed n o = (.error f, s', o')) :
    ∃ es k, o'.events.toList =
      o.events.toList ++ (es ++ [.exhausted k, .readerClosed k false]) := by
  unfold fetch at h
  split at h
  · next g s₁ o₁ hfill =>
    obtain ⟨hs₁, -⟩ := fill_snd hs hfill
    simp only [Prod.mk.injEq] at h
    obtain ⟨-, rfl, -⟩ := h
    rw [hs₁] at hafter
    exact absurd hafter (by simp [hbefore])
  next s₁ o₁ hfill =>
  obtain ⟨hs₁, -⟩ := fill_snd hs hfill
  have hended : s₁.ended = false := by
    rw [hs₁]
    exact hbefore
  split at h
  · next hp =>
    rw [hended] at hp
    have hnone : s₁.packet = none := hp
    obtain ⟨r, es, hreader, hes⟩ := events_of_fill hfill hnone
    split at h
    · next g s₂ o₂ hdrop =>
      simp only [Prod.mk.injEq] at h
      obtain ⟨-, -, rfl⟩ := h
      refine ⟨es, r.number, ?_⟩
      rw [events_of_dropReader (s := { s₁ with ended := true }) hnone hreader hdrop, hes]
      simp only [List.append_assoc, List.cons_append, List.nil_append]
    · simp at h
  · next p hp =>
    rw [Packet.take_portion] at h
    simp at h

end Events

/-! ## Calls -/

theorem remaining_of_ended {s : Stream R} (hopen : s.closed = false) (hended : s.ended = true) :
    s.remaining = .ok 0 := by
  simp [remaining, hopen, hended]

/-- A failed read. -/
theorem unmoved_reads (src : Source W R) {op : Op} (hop : op.reads = true)
    {p : Stream (Numbered R) × Observed W} (hs : p.1.Tidy) {f : Failure}
    (hfail : (step src.observed op p).outcome.result = .error f) :
    (step src.observed op p).after.1.position = p.1.position ∧
      ((step src.observed op p).after.1.remaining = p.1.remaining ∨
        (step src.observed op p).after.1.remaining = .ok 0 ∧
          ∃ es k, (step src.observed op p).events =
            es ++ [.exhausted k, .readerClosed k false]) := by
  rcases reads_cases src.observed hop hs with ⟨heq, -⟩ | ⟨n, x, hopen, -, hf, hx, -⟩
  · rw [heq]
    exact ⟨rfl, .inl rfl⟩
  obtain ⟨g, rfl⟩ : ∃ g, x = .error g := by
    cases x with
    | error g => exact ⟨g, rfl⟩
    | ok b => simp [hx, Except.map] at hfail
  rcases hafter : (step src.observed op p).after with ⟨s', o'⟩
  rw [hafter] at hf
  have hcases := fetched hs hf
  cases hended : p.1.ended with
  | true =>
    refine ⟨?_, .inl ?_⟩
    · cases hcases <;> rfl
    · cases hcases with
      | failed => rfl
      | endFailed =>
        rw [remaining_of_ended hopen hended]
        exact remaining_of_ended hopen rfl
  | false =>
    cases hcases with
    | failed g r => exact ⟨rfl, .inl rfl⟩
    | endFailed g =>
      obtain ⟨es, k, hes⟩ := events_of_fetch hs hended rfl hf
      refine ⟨rfl, .inr ⟨remaining_of_ended hopen rfl, es, k, Step.events_eq ?_⟩⟩
      rw [hafter]
      exact hes

/-- A failed move to another place. -/
theorem unmoved_seek (src : Source W R) {target : Int64} {p : Stream R × W} {f : Failure}
    (hfail : (step src (.seek target) p).outcome.result = .error f) :
    (step src (.seek target) p).after.1.position = p.1.position ∧
      ((step src (.seek target) p).after.1.remaining = p.1.remaining ∨
        p.1.ended = true ∧ 0 ≤ target.toInt ∧ target.toInt < p.1.position.toNat) := by
  rcases h : p.1.seek src target p.2 with ⟨x, s', w'⟩
  simp only [step, perform, h] at hfail ⊢
  rcases seek_cases h with rfl | ⟨-, hstart, -, ⟨-, rfl⟩ | ⟨rfl, -⟩⟩
  · exact ⟨rfl, .inl rfl⟩
  · refine ⟨rfl, ?_⟩
    cases hended : p.1.ended with
    | false =>
      left
      simp [remaining, rewound, rest, hended]
    | true =>
      by_cases hle : p.1.position ≤ target.toUInt64
      · left
        simp [remaining, rewound, hended, hle]
      · right
        rw [UInt64.le_iff_toNat_le] at hle
        have hnat := Offset.toNat_toUInt64 hstart
        exact ⟨rfl, hstart, by omega⟩
  · simp [Except.map] at hfail

/-- Passing over bytes where none are left goes nowhere. -/
theorem unmoved_skip (src : Source W R) (n : Int64) {p : Stream R × W}
    (hleft : p.1.remaining = .ok 0) :
    (step src (.skip n) p).after.1.position = p.1.position ∧
      (step src (.skip n) p).after.1.remaining = .ok 0 := by
  rcases h : p.1.skip src n p.2 with ⟨x, s', w'⟩
  simp only [step, perform, h]
  rcases skip_cases h with ⟨rfl, -⟩ | ⟨left, hsome, hn, -, rfl⟩
  · exact ⟨rfl, hleft⟩
  obtain rfl : left = 0 := Except.ok.inj (hsome.symm.trans hleft)
  have hmin : min (0 : Int64) n = 0 := by
    rw [← Int64.toInt_inj, Offset.toInt_min, Int64.toInt_zero]
    exact Int.min_eq_left (Int.le_of_lt hn)
  have hstays : p.1.position + (min 0 n).toUInt64 = p.1.position := by
    rw [hmin]
    exact UInt64.add_zero _
  rw [hstays]
  exact ⟨rfl, hleft⟩

theorem step_unmoved (src : Source W R) (op : Op) {p : Stream (Numbered R) × Observed W}
    (hs : p.1.Tidy) {f : Failure} (hfail : (step src.observed op p).outcome.result = .error f) :
    (step src.observed op p).Unmoved where
  reads hop := unmoved_reads src hop hs hfail
  seeks target htarget := by
    obtain rfl : op = .seek target := htarget
    exact unmoved_seek src.observed hfail
  skips n hn hleft := by
    obtain rfl : op = .skip n := hn
    exact unmoved_skip src.observed n hleft

/-- **What a failed call leaves of the cursor.**  For every source, every stream over it and every
run of calls: a call that fails leaves position and bytes left as `Step.Unmoved` says. -/
theorem unmoved_history (src : Source W R) (w : W) (block length : UInt64) (ops : List Op) :
    ∀ st ∈ history src.observed ops (start block length, { inner := w }),
      ∀ f, st.outcome.result = .error f → st.Unmoved :=
  forall_mem_history (I := fun p => p.1.Tidy)
    (fun op _ hp => ⟨fun _ hfail => step_unmoved src op hp hfail, (step_tidy _ op hp).1⟩)
    (fun _ => rfl) ops

/-! ## Failures that move the cursor -/

/-- A block of five bytes whose readers cannot be closed.  The first one stops at once. -/
def stopping : SourceScript where
  block := [1, 2, 3, 4, 5]
  readers := [{ endAt := some 0, closeFails := true }]

/-- The same block.  The first reader stops at once, the second one fails and cannot be closed. -/
def failingSecond : SourceScript where
  block := [1, 2, 3, 4, 5]
  readers := [{ endAt := some 0 }, { failAt := some 0, closeFails := true }]

/-- The same block.  Readers deliver it, but cannot be closed. -/
def unclosable : SourceScript where
  block := [1, 2, 3, 4, 5]
  readers := [{ closeFails := true }]

/-- A stream over a scripted block of five bytes after some calls. -/
def reached (script : SourceScript) (ops : List Op) :
    Stream (Numbered ScriptedReader) × Observed Site :=
  run script.source.observed ops (start 1 5, { inner := {} })

/-- A client that reads fails and is at the end, where five bytes were left.  One that goes back
from the end fails and has two bytes left, where there were none.  One that passes over two bytes
fails and has moved by two. -/
theorem not_unmoved :
    (∃ f, (step stopping.source.observed .readByte (reached stopping [])).outcome.result =
        .error f ∧
      (reached stopping []).1.remaining = .ok 5 ∧
      (step stopping.source.observed .readByte (reached stopping [])).after.1.remaining =
        .ok 0) ∧
    (∃ f, (step failingSecond.source.observed (.seek 0)
          (reached failingSecond [.seek 3, .readByte, .readByte])).outcome.result = .error f ∧
      (reached failingSecond [.seek 3, .readByte, .readByte]).1.remaining = .ok 0 ∧
      (step failingSecond.source.observed (.seek 0)
        (reached failingSecond [.seek 3, .readByte, .readByte])).after.1.remaining = .ok 2) ∧
    ∃ f, (step unclosable.source.observed (.skip 2)
          (reached unclosable [.readByte])).outcome.result = .error f ∧
      (reached unclosable [.readByte]).1.position = 1 ∧
      (step unclosable.source.observed (.skip 2)
        (reached unclosable [.readByte])).after.1.position = 3 :=
  ⟨⟨_, rfl, rfl, rfl⟩, ⟨_, rfl, rfl, rfl⟩, ⟨_, rfl, rfl, rfl⟩⟩

/-- A read that meets the end of a reader that cannot be closed fails where it is, with nothing
left, and the end is what it saw. -/
theorem unmoved_history_stopping :
    ∃ st ∈ history stopping.source.observed [.readByte] (start 1 5, { inner := ({} : Site) }),
      (∃ f, st.outcome.result = .error f) ∧ st.op.reads = true ∧
        st.after.1.position = st.before.1.position ∧
        (st.after.1.remaining = st.before.1.remaining ∨
          st.after.1.remaining = .ok 0 ∧
            ∃ es k, st.events = es ++ [.exhausted k, .readerClosed k false]) := by
  refine ⟨_, List.mem_singleton_self _, ⟨_, rfl⟩, rfl, ?_⟩
  exact (unmoved_history stopping.source ({} : Site) 1 5 [.readByte] _
    (List.mem_singleton_self _) _ rfl).reads rfl

end Stream
end BlockAccess
