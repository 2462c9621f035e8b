import Mathlib
import BlockAccess.Proofs.Stream.Gathering
import BlockAccess.Proofs.Stream.Positions

/-!
# The course of a read at a position

A read at a position makes a reader, gathers packets from it and closes it.  `Course` lists how this
can go, with what the read tells, the bytes it obtains and all that is seen of the source.  Either no
reader could be made, or there are the packets in order, each given back before the next one is asked
for, then whatever made the read stop, and one closing at the end.  If gathering failed, that is what
is told and not what became of closing the reader (`verdict`).

`course_step` says that every read at a position goes like this, and what it comes to for a reader
that delivers the range.  Over a source that delivers a block every reader does
(`Source.Conforming.delivers`).
-/

namespace BlockAccess

variable {W R : Type} [Journaled W]

open Packet (unreadIn emptiesAfter)

/-! ## Sources that deliver a block -/

namespace Source.Conforming

variable {src : Source W R} {S : Bytes}

/-- A source that delivers a block does so under observation. -/
def observed (c : src.Conforming S) : src.observed.Conforming S where
  Fair o := c.Fair o.inner
  Owes r o b e := c.Owes r.reader o.inner b e
  fair_note n h := c.fair_note n h
  fair_release p h := c.fair_release p h
  owes_note n h := c.owes_note n h
  owes_release p h := c.owes_release p h
  create {o} offset length h := by
    obtain ⟨r, w, hcreate, hfair, howes⟩ := c.create offset length h
    refine ⟨⟨o.readers, r⟩,
      { (o.withInner w).see (.created o.readers offset length true) with readers := o.readers + 1 },
      ?_, hfair, howes⟩
    simp only [Source.observed, hcreate]
    rfl
  next {r o b e} hfair howes := by
    rcases c.next hfair howes with ⟨r', w', hn, hw', hb, ho⟩ | ⟨p, r', w', rest, hn, hw', hb, ho⟩
    · refine .inl ⟨{ r with reader := r' }, (o.withInner w').see (.exhausted r.number), ?_, hw', hb,
        ho⟩
      simp only [Source.observed, hn]
    · refine .inr ⟨{ p with serial := o.packets }, { r with reader := r' },
        { (o.withInner w').see (.packet r.number o.packets p.readable) with
          packets := o.packets + 1 }, rest, ?_, hw', hb, ho⟩
      simp only [Source.observed, hn]
  close {r o b e} hfair howes := by
    obtain ⟨r', w', hclose, hw'⟩ := c.close hfair howes
    refine ⟨{ r with reader := r' }, (o.withInner w').see (.readerClosed r.number true), ?_, hw'⟩
    simp only [Source.observed, hclose]
    rfl

/-- A packet that is handed out and given back is the front of what was owed. -/
theorem turn (c : src.Conforming S) (block : UInt64) {r : R} {w : W} {b : Bytes} {e : Nat}
    (hw : c.Fair w) (h : c.Owes r w b e) :
    (∃ r' w', src.next r w = (.ok none, r', w') ∧ b = []) ∨
    ∃ p r' w' rest e', src.next r w = (.ok (some p), r', w') ∧ b = p.unread ++ rest ∧
      e' = (if p.readable = 0 then e + 1 else 0) ∧ e' < emptyPacketLimit ∧
      c.Fair (src.giveBack block p r' w') ∧ c.Owes r' (src.giveBack block p r' w') rest e' := by
  rcases c.next hw h with ⟨r', w', hn, -, hb, -⟩ |
    ⟨p, r', w', rest, hn, hw', hb, ⟨hne, ho⟩ | ⟨hnil, ho, he⟩⟩
  · exact .inl ⟨r', w', hn, hb⟩
  · have hfull : p.readable ≠ 0 := Nat.ne_of_gt (List.length_pos_iff.2 hne)
    refine .inr ⟨p, r', w', rest, 0, hn, hb, (if_neg hfull).symm, by decide, ?_⟩
    rw [show src.giveBack block p r' w' = src.release p.released w' from if_neg hfull]
    exact ⟨c.fair_release _ hw', c.owes_release _ ho⟩
  · have hempty : p.readable = 0 := by rw [Packet.readable, hnil, List.length_nil]
    refine .inr ⟨p, r', w', rest, e + 1, hn, hb, (if_pos hempty).symm, he, ?_⟩
    rw [show src.giveBack block p r' w' = _ from if_pos hempty]
    exact ⟨c.fair_release _ (c.fair_note _ hw'), c.owes_release _ (c.owes_note _ ho)⟩

/-- A reader hands out what it owes. -/
theorem hands (c : src.Conforming S) (block : UInt64) {r : R} {w : W} {b : Bytes} {e : Nat}
    (he : e < emptyPacketLimit) (hw : c.Fair w) (h : c.Owes r w b e) : ∃ ps r₁ w₁ r₂ w₂,
      src.Hands block r w ps r₁ w₁ ∧ src.next r₁ w₁ = (.ok none, r₂, w₂) ∧ unreadIn ps = b ∧
      ∀ qs, qs <+: ps → emptiesAfter e qs < emptyPacketLimit := by
  rcases c.turn block hw h with ⟨r', w', hn, hb⟩ | ⟨p, r', w', rest, e', hn, hb, he', hlt, hw', ho⟩
  · refine ⟨[], r, w, r', w', .nil r w, hn, hb.symm, fun qs hqs => ?_⟩
    rw [List.prefix_nil.1 hqs]
    exact he
  · obtain ⟨ps, r₁, w₁, r₂, w₂, hhands, hend, hbytes, hempties⟩ := c.hands block hlt hw' ho
    refine ⟨p :: ps, r₁, w₁, r₂, w₂, .cons hn hhands, hend, ?_, fun qs hqs => ?_⟩
    · rw [Packet.unreadIn_cons, hbytes, hb]
    cases qs with
    | nil => exact he
    | cons q qs =>
      obtain ⟨rfl, htail⟩ := List.cons_prefix_cons.1 hqs
      rw [emptiesAfter, ← he']
      exact hempties qs htail
-- either a packet had bytes in it, or it was one empty packet more
termination_by (b.length, emptyPacketLimit - e)
decreasing_by
  have hlength : b.length = p.readable + rest.length := by
    rw [hb, List.length_append, Packet.readable]
  by_cases hempty : p.readable = 0
  · rw [if_pos hempty] at he'
    rw [hlength, hempty, Nat.zero_add]
    exact Prod.Lex.right _ (by omega)
  · exact Prod.Lex.left _ _ (by omega)

/-- Every reader of a source that delivers a block delivers its range. -/
theorem delivers (c : src.Conforming S) (block offset length : UInt64) {r : R} {w w' : W}
    (hw : c.Fair w) (h : src.create offset length w = (.ok r, w')) :
    src.Delivers block r w' (range S offset length) := by
  obtain ⟨r₁, w₁, hcreate, hfair, howes⟩ := c.create offset length hw
  rw [h] at hcreate
  simp only [Prod.mk.injEq, Except.ok.injEq] at hcreate
  obtain ⟨rfl, rfl⟩ := hcreate
  exact c.hands block (by decide) hfair howes

end Source.Conforming

namespace Stream

open Source (succeeded turnsOf StopSeen)

/-! ## How a read goes -/

/-- How a read at a position goes: what it tells, the bytes it obtains and what is seen of it. -/
inductive Course (src : Source W R) (block : UInt64) (o : Observed W) (offset count : UInt64) :
    Except Failure (Option Nat) → Bytes → List Event → Prop
  /-- No reader could be made, so there is none to close. -/
  | refused {f : Failure} {o' : Observed W}
    (h : src.observed.create offset count o = (.error f, o')) :
    Course src block o offset count (.error f) [] [.created o.readers offset count false]
  /-- A reader was made, gathered from up to where the read stopped, and closed. -/
  | closed {r₀ r₁ r₂ r₃ : Numbered R} {o₀ o₁ o₂ o₃ : Observed W} {ps : List Packet}
    {x y : Except Failure Unit} {es : List Event}
    (hmade : src.observed.create offset count o = (.ok r₀, o₀))
    (hgathers : src.observed.Gathers block count.toNat 0 r₀ o₀ ps r₁ o₁)
    (hstops : src.observed.Stops block (count.toNat - (unreadIn ps).length) (emptiesAfter 0 ps)
      r₁ o₁ x r₂ o₂)
    (hseen : StopSeen block o.readers (count.toNat - (unreadIn ps).length) x es)
    (hclose : src.observed.close r₂ o₂ = (y, r₃, o₃)) :
    Course src block o offset count (verdict x y (unreadIn ps)) (unreadIn ps)
      (.created o.readers offset count true ::
        (turnsOf o.readers ps ++ es ++ [.readerClosed o.readers (succeeded y)]))

variable {src : Source W R} {s : Stream (Numbered R)} {o o' : Observed W} {target : Int64}
  {count : UInt64} {x : Except Failure (Option Nat)} {b : Bytes}

theorem course_readAt (hopen : s.closed = false) (hcount : count ≠ 0) (hstart : 0 ≤ target.toInt)
    (hbefore : target.toUInt64 < s.length)
    (h : s.readAt src.observed target count o = (x, b, o')) :
    ∃ es, o.Saw es o' ∧ Course src s.block o target.toUInt64 count x b es := by
  cases readAt_cases h with
  | shut hclosed => exact absurd (hclosed.symm.trans hopen) (by decide)
  | idle hzero => exact absurd hzero hcount
  | outside hpast =>
    have hneg : ¬target < 0 := by
      rw [Offset.neg_iff]
      omega
    rw [Bool.or_eq_true, decide_eq_true_eq, decide_eq_true_eq] at hpast
    rcases hpast with hneg' | hpast
    · exact absurd hneg' hneg
    · exact absurd hpast (UInt64.not_le.2 hbefore)
  | refused hcreate => exact ⟨_, (Source.saw_refused s.block hcreate).1, .refused hcreate⟩
  | @gathered r₀ r₂ r₃ o₀ o₂ o₃ _ got y z hcreate hgather hclose hnoted =>
    obtain ⟨ps, r₁, o₁, hgathers, hbytes, hstops⟩ := Source.gathered count.toNat_lt hgather
    rw [hbytes]
    -- what is seen, in order
    obtain ⟨hfirst, hmade⟩ := Source.saw_made hcreate
    obtain ⟨hsecond, hturns⟩ := hgathers.hands.saw
    obtain ⟨hthird, es, hes, hseen⟩ := hstops.saw
    have hclosed := (Source.saw_close s.block hclose).1
    rw [hfirst] at hsecond hturns
    rw [hsecond] at hthird hseen
    rw [hthird] at hclosed
    exact ⟨_, hmade.append ((hturns.append hes).append (hclosed.noted hnoted)),
      .closed hcreate hgathers hstops hseen hclose⟩

/-! ## What it comes to -/

variable {block offset : UInt64} {es : List Event} {S : Bytes}

/-- The bytes of a range are told by their number, if there are any. -/
theorem countOf_range (hcount : count ≠ 0) : countOf (range S offset count) =
    if S.length ≤ offset.toNat then none
    else some (min count.toNat (S.length - offset.toNat)) := by
  have hpos : count.toNat ≠ 0 := fun h => hcount (UInt64.toNat_inj.1 h)
  have hlength : (range S offset count).length = min count.toNat (S.length - offset.toNat) := by
    rw [range, List.length_take, List.length_drop]
  rw [countOf_eq, hlength]
  by_cases hpast : S.length ≤ offset.toNat
  · rw [if_pos hpast, if_pos (by omega)]
  · rw [if_neg hpast, if_neg (by omega)]

/-- **A read from a reader that delivers the range obtains the range**, and tells so unless closing
the reader fails. -/
theorem Course.delivered (h : Course src block o offset count x b es) {r₀ : Numbered R}
    {o₀ : Observed W} (hcreate : src.observed.create offset count o = (.ok r₀, o₀))
    (hdelivers : src.observed.Delivers block r₀ o₀ (range S offset count)) :
    b = range S offset count ∧ ∃ (before : List Event) (y : Except Failure Unit),
      es = before ++ [.readerClosed o.readers (succeeded y)] ∧
      x = y.map (fun _ => countOf (range S offset count)) ∧
      ∀ f, y = .error f → src.Blames block f (.readerClosed o.readers false) := by
  cases h with
  | refused h =>
    rw [hcreate] at h
    simp at h
  | @closed _ r₁ r₂ r₃ _ o₁ o₂ o₃ ps _ z es hmade hgathers hstops _ hclose =>
    rw [hcreate] at hmade
    simp only [Prod.mk.injEq, Except.ok.injEq] at hmade
    obtain ⟨rfl, rfl⟩ := hmade
    have hlength : (range S offset count).length ≤ count.toNat := List.length_take_le ..
    obtain ⟨rfl, hbytes⟩ := hdelivers.gathered hlength hgathers hstops
    have hnumber : r₂.number = o.readers := by
      rw [hstops.saw.1, hgathers.hands.saw.1, (Source.saw_made hcreate).1]
    have hblames := (Source.saw_close block hclose).2
    rw [hnumber] at hblames
    refine ⟨hbytes, .created o.readers offset count true :: (turnsOf o.readers ps ++ es), z, rfl, ?_,
      hblames⟩
    rw [← hbytes]
    cases z <;> rfl

/-! ## Every call -/

/-- A read at a position inside of the declared length, with bytes to read and a window for them. -/
structure Step.Goes (src : Source W R) (st : Step (Observed W) (Numbered R)) (d : Destination)
    (offset start count : UInt64) : Prop where
  /-- The read takes its course, and the bytes that it obtains are in the window. -/
  course : ∃ x b, Course src st.before.1.block st.before.2 start count x b st.events ∧
    st.outcome.result = x.map .count ∧ st.outcome.memory = some (d.put offset.toNat b)
  /-- The stream has no part in it. -/
  stream : st.after.1 = st.before.1
  /-- From a reader that delivers the bytes of a block in the range, all of these are obtained.
  Their number is told, or that there are none, unless closing the reader fails. -/
  delivered : ∀ (S : Bytes) (r : Numbered R) (o : Observed W),
    src.observed.create start count st.before.2 = (.ok r, o) →
    src.observed.Delivers st.before.1.block r o (range S start count) →
      st.outcome.memory = some (d.put offset.toNat (range S start count)) ∧
      (st.outcome.result = .ok (.count (if S.length ≤ start.toNat then none
          else some (min count.toNat (S.length - start.toNat)))) ∧
        st.before.2.SawLast (Event.ClosesReader true) st.after.2 ∨
      ∃ f, st.outcome.result = .error f ∧
        st.before.2.SawLast (fun e => e.ClosesReader false ∧ src.Blames st.before.1.block f e)
          st.after.2)

/-- **A read at a position, from end to end.**  For every source and every stream that is open. -/
theorem course_step (src : Source W R) {p : Stream (Numbered R) × Observed W} {target : Int64}
    {d : Destination} {offset count : UInt64} (hopen : p.1.closed = false)
    (hstart : 0 ≤ target.toInt) (hbefore : target.toInt < p.1.length.toNat)
    (hfits : offset.toNat + count.toNat ≤ d.size.toNat) (hcount : count ≠ 0) :
    (step src.observed (.readAt target (some d) offset count) p).Goes src d offset
      target.toUInt64 count := by
  have hinside : target.toUInt64 < p.1.length := by
    have hnat := Offset.toNat_toUInt64 hstart
    rw [UInt64.lt_iff_toNat_lt]
    omega
  have hd : p.1.destination? (some d) offset count = .ok d := by
    simp [destination?, hopen, d.admits_iff, hfits]
  rcases hr : p.1.readAt src.observed target count p.2 with ⟨x, b, o'⟩
  obtain ⟨es, hes, hcourse⟩ := course_readAt hopen hcount hstart hinside hr
  have hstep : step src.observed (.readAt target (some d) offset count) p =
      ⟨.readAt target (some d) offset count, p,
        { result := x.map .count, memory := some (d.put offset.toNat b) }, (p.1, o')⟩ := by
    simp only [step, perform, readAtInto, hd, hr]
  rw [hstep]
  constructor
  case course =>
    refine ⟨x, b, ?_, rfl, rfl⟩
    show Course src p.1.block p.2 target.toUInt64 count x b
      (o'.events.toList.drop p.2.events.size)
    rw [Observed.Saw.drop_eq hes]
    exact hcourse
  case stream => rfl
  case delivered =>
    intro S r o hcreate hdelivers
    obtain ⟨rfl, before, y, rfl, rfl, hblames⟩ := hcourse.delivered hcreate hdelivers
    refine ⟨rfl, ?_⟩
    cases y with
    | ok =>
      left
      refine ⟨?_, before, _, hes, p.2.readers, rfl⟩
      show Except.ok (Answer.count (countOf (range S target.toUInt64 count))) = _
      rw [countOf_range hcount]
    | error f => exact .inr ⟨f, rfl, before, _, hes, ⟨p.2.readers, rfl⟩, hblames f rfl⟩

/-- A block of seven bytes in packets of one byte, then none, and then of two. -/
def grained : SourceScript where
  block := [1, 2, 3, 4, 5, 6, 7]
  readers := [{ sizes := [1, 0, 2] }]

theorem grained_steady (n : Nat) :
    n ∉ grained.failingCreates ∧ ((forCall? grained.readers n).getD {}).Steady := by
  have hreader : (forCall? grained.readers n).getD {} = { sizes := [1, 0, 2] } := by
    rw [forCall?, show min n (grained.readers.length - 1) = 0 from Nat.min_zero n]
    rfl
  rw [hreader]
  refine ⟨List.not_mem_nil, rfl, rfl, rfl, rfl, fun i => ?_⟩
  rcases i with _ | _ | i
  · exact ⟨0, by decide, by decide⟩
  · exact ⟨1, by decide, by decide⟩
  · exact ⟨0, by decide, by simp [ReaderScript.sizeAt, forCall?]⟩

/-- Four bytes are read from the third on.  The packets are of one byte, none, two and then one. -/
theorem course_step_grained :
    ∃ st, st = step (grained.source (W := Site)).observed
        (.readAt 2 (some ⟨6, [9, 9, 9, 9, 9, 9]⟩) 1 4) (start 1 7, { inner := {} }) ∧
      st.Goes grained.source ⟨6, [9, 9, 9, 9, 9, 9]⟩ 1 2 4 ∧
      (∃ r o, (grained.source (W := Site)).observed.create 2 4 { inner := {} } = (.ok r, o) ∧
        grained.source.observed.Delivers 1 r o [3, 4, 5, 6]) ∧
      st.outcome.result = .ok (.count (some 4)) ∧
      st.outcome.memory = some ⟨6, [9, 3, 4, 5, 6, 9]⟩ ∧
      st.events = [.created 0 2 4 true, .packet 0 0 1, .released 0 1 0, .packet 0 1 0,
        .released 1 0 0, .packet 0 2 2, .released 2 2 0, .packet 0 3 1, .released 3 1 0,
        .readerClosed 0 true] := by
  refine ⟨_, rfl, course_step grained.source rfl (by decide) (by decide) (by decide) (by decide),
    ?_, ?_, ?_, ?_⟩
  · exact ⟨_, _, rfl, (grained.conforming 0 fun n _ => grained_steady n).observed.delivers 1 2 4
      (w := { inner := {} }) (Nat.zero_le 0) rfl⟩
  all_goals cbv

end Stream

end BlockAccess
