import BlockAccess.Proofs.Stream.Cursor

/-!
# Going on after a failure

A read in sequence that fails because its reader failed leaves that reader with the stream
(`FailedRead`).  Moving to another place gives it up, and if it can be closed and the source
delivers the block from then on, the stream reads from the new place as a cursor would.

Two things that moving does not do limit this, and both are meant so.  Moving to where the stream is
does nothing at all, so the reader that failed stays.  And moving forward does not lift the end of
the stream, so a stream that met its end before stays there.  `seek_recovers` tells the cases apart.
-/

namespace BlockAccess
namespace Stream

open Offset

variable {W R : Type} [Journaled W] {src : Source W R} {S : Bytes} {length : UInt64}

/-- The calls that ask for at least one byte in sequence. -/
def Op.asks : Op → Bool
  | .readByte => true
  | .read (some d) offset count => d.admits offset count && 0 < count
  | _ => false

/-- A stream of a declared length, reached by any calls, of which a read in sequence has just failed
and left its reader behind. -/
structure FailedRead (src : Source W R) (length : UInt64) (p : Stream R × W) (r : R) : Prop where
  reached : ∃ block w ops op cause, op.reads = true ∧
    (step src op (run src ops (start block length, w))).outcome.result =
      .error (.transport cause) ∧
    p = (step src op (run src ops (start block length, w))).after
  reader : p.1.reader = some r

/-- The stream is open and has no packet. -/
theorem FailedRead.eq {p : Stream R × W} {r : R} (h : FailedRead src length p r) :
    p.1.closed = false ∧ p.1.length = length ∧ p.1.packet = none := by
  obtain ⟨block, w, ops, op, cause, hop, hfail, rfl⟩ := h.reached
  have hrun : (run src ops (start block length, w)).1.Tidy ∧
      (run src ops (start block length, w)).1.length = length := by
    refine run_keeps (I := fun q => q.1.Tidy ∧ q.1.length = length) (fun op q hq => ?_)
      ⟨fun _ => rfl, rfl⟩ ops
    obtain ⟨htidy, hlength⟩ := step_tidy src op hq.1
    exact ⟨htidy, hlength.trans hq.2⟩
  have hreader := h.reader
  rcases reads_cases src hop hrun.1 with ⟨-, -, hother⟩ | ⟨n, x, hopen, hn, hf, hx, -⟩
  · exact absurd hfail (hother cause)
  rcases hafter : (step src op (run src ops (start block length, w))).after with ⟨s, w'⟩
  rw [hafter] at hf hreader
  cases fetched hrun.1 hf with
  | failed f q => exact ⟨hopen, hrun.2, rfl⟩
  | endFailed f => simp at hreader
  | ended => simp [hfail, Except.map] at hx
  | bytes q k b => simp [hfail, Except.map] at hx

omit [Journaled W] in
/-- A reader that can be closed is given up. -/
theorem dropReader_of_close {s : Stream R} {w w' : W} {r r' : R} (hpacket : s.packet = none)
    (hreader : s.reader = some r) (hclose : src.close r w = (.ok (), r', w')) :
    s.dropReader src w = (.ok (), { s with reader := none, packet := none }, w') := by
  simp only [Stream.dropReader, releasePacket, hpacket, hreader, hclose]

/-- A stream that met its end gives nothing, whatever is in front of it. -/
theorem Attached.fetch_ended {c : src.Conforming S} {s : Stream R} {w : W}
    (h : Attached c length (s, w)) (hended : s.ended = true) (n : UInt64) :
    ∃ s' w', s.fetch src n w = (.ok none, s', w') := by
  unfold Stream.fetch
  rcases h.fill with ⟨r, w₁, e, hf, hw₁, -, ho⟩ | ⟨r, p, w₁, b, hf, hw₁, -, -, ho⟩
  all_goals
    rw [hf]
    simp only [hended, if_true]
  · obtain ⟨w', hd, -⟩ :=
      c.dropReader (s := { s with reader := some r, packet := none, ended := true }) hw₁
        fun q hq => ⟨[], e, Option.some.inj hq ▸ ho⟩
    rw [hd]
    exact ⟨_, _, rfl⟩
  · obtain ⟨w', hd, -⟩ :=
      c.dropReader (s := { s with reader := some r, packet := some p, ended := true }) hw₁
        fun q hq => ⟨b, 0, Option.some.inj hq ▸ ho⟩
    rw [hd]
    exact ⟨_, _, rfl⟩

theorem Attached.step_ended {c : src.Conforming S} {p : Stream R × W} (h : Attached c length p)
    (hended : p.1.ended = true) {op : Op} (hop : op.asks = true) :
    (step src op p).outcome.result = .ok (op.answer none) := by
  have hopen : p.1.closed = false := h.isOpen
  have hread (n : UInt64) (hn : 0 < n) : ∃ q, p.1.readSome src n p.2 = (.ok none, q) := by
    obtain ⟨s', w', hf⟩ := h.fetch_ended hended n
    have hne : n ≠ 0 := fun h0 => by simp [h0] at hn
    exact ⟨(s', w'), by rw [readSome, if_neg (by simp [hopen]), if_neg hne, hf]⟩
  cases op with
  | readByte =>
    obtain ⟨q, hq⟩ := hread 1 (by decide)
    rw [step_readByte hq]
    rfl
  | read memory offset count =>
    cases memory with
    | none => simp [Op.asks] at hop
    | some d =>
      simp only [Op.asks, Bool.and_eq_true, decide_eq_true_eq] at hop
      have hd : p.1.destination? (some d) offset count = .ok d := by
        simp [destination?, hopen, hop.1]
      obtain ⟨q, hq⟩ := hread count hop.2
      rw [Stream.step_read hd hq]
      rfl
  | _ => simp [Op.asks] at hop

/-- Moving elsewhere after a failure: the stream has no reader then and the source is fair. -/
theorem FailedRead.seek_of_ne (c : src.Conforming S) {p : Stream R × W} {r r' : R} {w' : W}
    (h : FailedRead src length p r) (hclose : src.close r p.2 = (.ok (), r', w')) (hw : c.Fair w')
    {target : Int64} (hstart : 0 ≤ target.toInt) (hend : target.toInt ≤ length.toNat)
    (hne : target.toUInt64 ≠ p.1.position) :
    ∃ s, p.1.seek src target p.2 = (.ok (), s, w') ∧ Attached c length (s, w') ∧
      s.position = target.toUInt64 ∧ s.ended = (p.1.rewound target.toUInt64).ended := by
  obtain ⟨hopen, hlength, hpacket⟩ := h.eq
  have hnat := toNat_toUInt64 hstart
  have hle : target.toUInt64 ≤ p.1.length := by
    rw [hlength, UInt64.le_iff_toNat_le]
    omega
  have hd := dropReader_of_close (s := p.1.rewound target.toUInt64) hpacket h.reader hclose
  refine ⟨_, Stream.seek_of_ne hopen hstart hle hne hd, ?_, rfl, rfl⟩
  exact ⟨⟨fun _ => rfl, hlength, by dsimp only; omega⟩, hopen, hw, fun q hq => by simp at hq⟩

/-- **Reading on after a failed read.**  A read in sequence failed and left its reader behind.  If
that reader can be closed and the source delivers the block `S` from then on, moving to any place of
the stream ends well, and what comes after depends on the place.

* From another place, reads go as for a cursor there, if the place is further back or the end was
  not met before.
* From a place further on, when the end was met before, reads are at the end.
* Moving to where the stream is leaves it as the failed read left it. -/
theorem seek_recovers (c : src.Conforming S) {p : Stream R × W} {r r' : R} {w' : W}
    (h : FailedRead src length p r) (hclose : src.close r p.2 = (.ok (), r', w')) (hw : c.Fair w')
    {target : Int64} (hstart : 0 ≤ target.toInt) (hend : target.toInt ≤ length.toNat) :
    (step src (.seek target) p).outcome.result = .ok .done ∧
      (target.toInt < p.1.position.toNat ∨
          p.1.position.toNat < target.toInt ∧ p.1.ended = false →
        ∀ op, op.reads = true → ∃ k, Cursor.Does S length.toNat ⟨target.toInt.toNat, false⟩ op
          (step src op (step src (.seek target) p).after).outcome k) ∧
      (p.1.position.toNat < target.toInt ∧ p.1.ended = true →
        ∀ op, op.asks = true →
          (step src op (step src (.seek target) p).after).outcome.result = .ok (op.answer none)) ∧
      (target.toInt = p.1.position.toNat → (step src (.seek target) p).after = p) := by
  obtain ⟨hopen, hlength, -⟩ := h.eq
  have hnat := toNat_toUInt64 hstart
  by_cases hsame : target.toUInt64 = p.1.position
  · have hle : target.toUInt64 ≤ p.1.length := by
      rw [hlength, UInt64.le_iff_toNat_le]
      omega
    have hposition : target.toUInt64.toNat = p.1.position.toNat := congrArg UInt64.toNat hsame
    have hself : step src (.seek target) p = ⟨.seek target, p, { result := .ok .done }, p⟩ := by
      simp only [step, perform, seek_self hopen hstart hle hsame, Except.map]
    rw [hself]
    exact ⟨rfl, fun hne => absurd hposition (by omega), fun hne => absurd hposition (by omega),
      fun _ => rfl⟩
  have hne : target.toUInt64.toNat ≠ p.1.position.toNat := fun heq => hsame (UInt64.toNat_inj.1 heq)
  obtain ⟨s, hs, hattached, hposition, hended⟩ := h.seek_of_ne c hclose hw hstart hend hsame
  have hafter : (step src (.seek target) p).after = (s, w') := by
    simp only [step, perform, hs]
  have hdone : (step src (.seek target) p).outcome.result = .ok .done := by
    simp only [step, perform, hs, Except.map]
  refine ⟨hdone, fun hplace op hop => ?_, fun hplace op hop => ?_,
    fun heq => absurd heq (by omega)⟩
  · have hfresh : s.ended = false := by
      rw [hended]
      simp only [rewound, Bool.and_eq_false_iff, decide_eq_false_iff_not,
        UInt64.le_iff_toNat_le]
      rcases hplace with hback | ⟨-, hclear⟩
      · exact .inr (by omega)
      · exact .inl hclear
    have hready : Ready c length (s, w') := ⟨hattached, fun he => by simp [hfresh] at he⟩
    have hcursor : cursorOf s = ⟨target.toInt.toNat, false⟩ := by
      rw [cursorOf, hposition, hfresh]
      congr 1
      omega
    rw [hafter, ← hcursor]
    cases op with
    | readByte => exact ⟨_, hready.step_readByte.1⟩
    | read memory offset count => exact ⟨_, hready.step_read.1⟩
    | _ => simp [Op.reads] at hop
  · have hsticky : s.ended = true := by
      rw [hended]
      simp only [rewound, hplace.2, Bool.true_and, decide_eq_true_eq, UInt64.le_iff_toNat_le]
      omega
    rw [hafter]
    exact hattached.step_ended hsticky hop

/-- A block of which the first reader fails for good, the others deliver it. -/
def brokenFirst : SourceScript where
  block := [1, 2, 3, 4, 5]
  readers := [{ failAt := some 0 }, {}]

/-- A block of which the first reader stops at once, the second one fails for good, the others
deliver it. -/
def brokenSecond : SourceScript where
  block := [1, 2, 3, 4, 5]
  readers := [{ endAt := some 0 }, { failAt := some 0 }, {}]

theorem steady_brokenFirst (n : Nat) (hn : 1 ≤ n) :
    n ∉ brokenFirst.failingCreates ∧ ((forCall? brokenFirst.readers n).getD {}).Steady := by
  have hlast : min n 1 = 1 := by omega
  have hscript : (forCall? brokenFirst.readers n).getD {} = {} := by
    simp [forCall?, brokenFirst, hlast]
  rw [hscript]
  exact ⟨List.not_mem_nil, ReaderScript.steady_default⟩

theorem steady_brokenSecond (n : Nat) (hn : 2 ≤ n) :
    n ∉ brokenSecond.failingCreates ∧ ((forCall? brokenSecond.readers n).getD {}).Steady := by
  have hlast : min n 2 = 2 := by omega
  have hscript : (forCall? brokenSecond.readers n).getD {} = {} := by
    simp [forCall?, brokenSecond, hlast]
  rw [hscript]
  exact ⟨List.not_mem_nil, ReaderScript.steady_default⟩

/-- The stream after its first read failed. -/
def failedFirst : Stream ScriptedReader × Site :=
  run brokenFirst.source [.readByte] (start 1 5, {})

/-- The stream after it met its end at the start, went on by one byte, and failed to read there. -/
def failedSecond : Stream ScriptedReader × Site :=
  run brokenSecond.source [.readByte, .seek 1, .readByte] (start 1 5, {})

/-- A reader that failed with these bytes of five in front of it. -/
def failedReader (rest : Bytes) : ScriptedReader where
  script := { failAt := some 0 }
  offset := 5 - rest.length
  rest := rest
  hasFailed := true

theorem failedRead_failedFirst :
    FailedRead brokenFirst.source 5 failedFirst (failedReader [1, 2, 3, 4, 5]) where
  reached := ⟨1, {}, [], .readByte, _, rfl, rfl, rfl⟩
  reader := rfl

theorem failedRead_failedSecond :
    FailedRead brokenSecond.source 5 failedSecond (failedReader [2, 3, 4, 5]) where
  reached := ⟨1, {}, [.readByte, .seek 1], .readByte, _, rfl, rfl, rfl⟩
  reader := rfl

/-- Moving to where the stream is keeps the reader that failed, and the next read fails again.
Moving on after the end was met keeps that, and the next read gives nothing, with three bytes in
front of it.  Both readers can be closed, and the readers after them deliver the block. -/
theorem not_recovered :
    (∃ r' w' cause, ∃ c : (brokenFirst.source (W := Site)).Conforming [1, 2, 3, 4, 5],
      FailedRead brokenFirst.source 5 failedFirst (failedReader [1, 2, 3, 4, 5]) ∧
      brokenFirst.source.close (failedReader [1, 2, 3, 4, 5]) failedFirst.2 = (.ok (), r', w') ∧
      c.Fair w' ∧ (step brokenFirst.source (.seek 0) failedFirst).outcome.result = .ok .done ∧
      (step brokenFirst.source .readByte
        (step brokenFirst.source (.seek 0) failedFirst).after).outcome.result =
          .error (.transport cause)) ∧
    ∃ r' w', ∃ c : (brokenSecond.source (W := Site)).Conforming [1, 2, 3, 4, 5],
      FailedRead brokenSecond.source 5 failedSecond (failedReader [2, 3, 4, 5]) ∧
      brokenSecond.source.close (failedReader [2, 3, 4, 5]) failedSecond.2 = (.ok (), r', w') ∧
      c.Fair w' ∧ (step brokenSecond.source (.seek 2) failedSecond).outcome.result = .ok .done ∧
      (step brokenSecond.source .readByte
        (step brokenSecond.source (.seek 2) failedSecond).after).outcome.result =
          .ok (.byte none) := by
  constructor
  · refine ⟨_, failedFirst.2, _, brokenFirst.conforming 1 steady_brokenFirst,
      failedRead_failedFirst, rfl, ?_, rfl, rfl⟩
    exact Nat.le_refl 1
  · refine ⟨_, failedSecond.2, brokenSecond.conforming 2 steady_brokenSecond,
      failedRead_failedSecond, rfl, ?_, rfl, rfl⟩
    exact Nat.le_refl 2

/-- From any other place than where it failed the stream reads on. -/
theorem seek_recovers_brokenFirst :
    FailedRead brokenFirst.source 5 failedFirst (failedReader [1, 2, 3, 4, 5]) ∧
      (0 ≤ (3 : Int64).toInt ∧ (3 : Int64).toInt ≤ (5 : UInt64).toNat) ∧
      (step brokenFirst.source (.seek 3) failedFirst).outcome.result = .ok .done ∧
      ∀ op, op.reads = true → ∃ k, Cursor.Does [1, 2, 3, 4, 5] 5 ⟨3, false⟩ op
        (step brokenFirst.source op
          (step brokenFirst.source (.seek 3) failedFirst).after).outcome k := by
  have hstart : 0 ≤ (3 : Int64).toInt := by decide
  have hend : (3 : Int64).toInt ≤ (5 : UInt64).toNat := by decide
  have hfair : (brokenFirst.conforming 1 steady_brokenFirst).Fair failedFirst.2 := Nat.le_refl 1
  obtain ⟨hdone, helsewhere, -⟩ :=
    seek_recovers _ failedRead_failedFirst rfl hfair hstart hend
  exact ⟨failedRead_failedFirst, ⟨hstart, hend⟩, hdone,
    helsewhere (.inr ⟨by decide, rfl⟩)⟩

end Stream
end BlockAccess
