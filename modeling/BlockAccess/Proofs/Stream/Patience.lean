import Mathlib
import BlockAccess.Proofs.Stream.Hearing

/-!
# How often a reader is asked

A reader may hand out empty packets for ever, or now and then one byte among them.  A read asks it
for packets all the same, so there has to be an end to it.  `Step.Patient` says how often a reader
is asked during one read, and when it is given up: after `emptyPacketLimit` empty packets in a row
within that read.  Empty packets with bytes between them do not count together, and neither do those
of different reads, for only what is seen during the call is looked at.

A read in sequence ends with the first bytes (`Stream.Hearing`).  A read at a position goes on, and
two things count: bytes come together, or empty packets add up.  `Packet.length_add_le` weighs them
against each other, a byte for `emptyPacketLimit` empty packets.
-/

namespace BlockAccess

variable {W R : Type}

/-! ## Reads at a position -/

namespace Packet

/-- The answer in which a packet is handed out. -/
def asAnswer (p : Packet) : Option Nat := some p.readable

variable {n : Nat} {ps qs : List Packet}

theorem emptiesAfter_append (n : Nat) (ps qs : List Packet) :
    emptiesAfter n (ps ++ qs) = emptiesAfter (emptiesAfter n ps) qs := by
  induction ps generalizing n with
  | nil => rfl
  | cons p ps ih => exact ih _

theorem emptiesAfter_of_empty (h : ∀ q ∈ qs, q.readable = 0) :
    emptiesAfter n qs = n + qs.length := by
  induction qs generalizing n with
  | nil => rfl
  | cons q qs ih =>
    rw [List.forall_mem_cons] at h
    rw [emptiesAfter, if_pos h.1, ih h.2, List.length_cons]
    omega

/-- A packet with bytes in it makes up for the empty ones in front of it, as long as they do not
exhaust the reader of them. -/
theorem length_add_le (h : ∀ qs, qs <+: ps → qs ≠ ps → emptiesAfter n qs < emptyPacketLimit) :
    ps.length + n ≤ emptyPacketLimit * (unreadIn ps).length + emptiesAfter n ps := by
  induction ps generalizing n with
  | nil => exact Nat.le_of_eq (by simp [emptiesAfter])
  | cons p ps ih =>
    have hn : n < emptyPacketLimit := h [] List.nil_prefix (List.cons_ne_nil p ps).symm
    have hrest := ih (n := if p.readable = 0 then n + 1 else 0) fun qs hqs hne =>
      h (p :: qs) (List.cons_prefix_cons.2 ⟨rfl, hqs⟩) fun heq => hne (List.tail_eq_of_cons_eq heq)
    rw [unreadIn_cons, List.length_append, emptiesAfter, List.length_cons, Nat.mul_add]
    by_cases hempty : p.readable = 0
    · rw [if_pos hempty] at hrest ⊢
      omega
    · rw [if_neg hempty] at hrest ⊢
      have hpays : emptyPacketLimit ≤ emptyPacketLimit * p.unread.length :=
        Nat.le_mul_of_pos_right _ (Nat.pos_of_ne_zero hempty)
      omega

/-- The empty packets at the end are heard. -/
theorem replicate_emptiesAfter_suffix (n : Nat) (ps : List Packet) :
    List.replicate (emptiesAfter n ps) (some 0) <:+
      List.replicate n (some 0) ++ ps.map asAnswer := by
  induction ps generalizing n with
  | nil => exact ⟨[], by simp [emptiesAfter]⟩
  | cons p ps ih =>
    rw [emptiesAfter, List.map_cons]
    by_cases hempty : p.readable = 0
    · have hmore := ih (n + 1)
      rw [if_pos hempty, asAnswer, hempty]
      rwa [List.replicate_succ', List.append_assoc] at hmore
    · rw [if_neg hempty]
      have hfresh := ih 0
      rw [List.replicate_zero, List.nil_append] at hfresh
      exact hfresh.trans ⟨List.replicate n (some 0) ++ [asAnswer p], by simp⟩

/-- Empty packets that are heard in a row were counted when the last of them came. -/
theorem exists_prefix_of_replicate {k : Nat}
    (h : List.replicate k (some 0) <:+: ps.map asAnswer) :
    ∃ qs, qs <+: ps ∧ k ≤ emptiesAfter n qs := by
  obtain ⟨before, after, heq⟩ := h
  obtain ⟨qs, rest, rfl, hqs, -⟩ := List.map_eq_append_iff.1 heq.symm
  obtain ⟨front, back, rfl, -, hback⟩ := List.map_eq_append_iff.1 hqs
  have hempty (q : Packet) (hq : q ∈ back) : q.readable = 0 := by
    have hanswer : asAnswer q ∈ back.map asAnswer := List.mem_map_of_mem hq
    rw [hback] at hanswer
    exact Option.some_inj.1 (List.eq_of_mem_replicate hanswer)
  have hlength : back.length = k := by
    rw [← List.length_map asAnswer, hback, List.length_replicate]
  refine ⟨front ++ back, List.prefix_append .., ?_⟩
  rw [emptiesAfter_append, emptiesAfter_of_empty hempty, hlength]
  exact Nat.le_add_left ..

end Packet

open Packet (unreadIn emptiesAfter asAnswer)

namespace Source

theorem answersIn_turnsOf (k : Nat) (ps : List Packet) :
    answersIn (turnsOf k ps) = ps.map asAnswer := by
  induction ps with
  | nil => rfl
  | cons p ps ih =>
    rw [turnsOf, List.flatMap_cons, answersIn_append]
    exact congrArg (asAnswer p :: ·) ih

variable [Journaled W] {src : Source W R} {block : UInt64} {o o' : Observed W} {r r' : Numbered R}

/-- If all bytes are together then the last packet had some of them. -/
theorem Gathers.emptiesAfter_of_full {wanted : Nat} {ps : List Packet}
    (h : src.observed.Gathers block wanted 0 r o ps r' o') (hfull : wanted ≤ (unreadIn ps).length) :
    emptiesAfter 0 ps = 0 := by
  rcases List.eq_nil_or_concat ps with rfl | ⟨qs, p, rfl⟩
  · rfl
  rw [List.concat_eq_append] at h hfull ⊢
  have hless := (h.hungry qs (List.prefix_append ..) (by simp)).1
  rw [Packet.unreadIn_append, List.length_append] at hfull
  have hpos : p.readable ≠ 0 := by
    intro hempty
    rw [Packet.readable] at hempty
    simp [hempty] at hfull
    omega
  rw [Packet.emptiesAfter_append, emptiesAfter, if_neg hpos, emptiesAfter]

/-- A reader that is not given up hands out fewer empty packets in a row than it takes. -/
theorem Gathers.not_wearies {wanted : Nat} {ps : List Packet}
    (h : src.observed.Gathers block wanted 0 r o ps r' o')
    (hlast : emptiesAfter 0 ps < emptyPacketLimit) {as : List (Option Nat)} (has : some 0 ∉ as) :
    ¬Wearies (ps.map asAnswer ++ as) := by
  intro hwearies
  obtain ⟨qs, hqs, hmany⟩ :=
    Packet.exists_prefix_of_replicate (n := 0) (infix_of_notMem has hwearies)
  by_cases hall : qs = ps
  · rw [hall] at hmany
    exact absurd hlast (Nat.not_lt.2 hmany)
  · exact absurd (h.hungry qs hqs hall).2 (Nat.not_lt.2 hmany)

omit [Journaled W] in
/-- What is heard where a read stops that does not give up its reader: nothing if all bytes are
together, and else one answer, which is no empty packet. -/
theorem Stops.heard {left n : Nat} {x : Except Failure Unit}
    (h : src.observed.Stops block left n r o x r' o') :
    (0 < left ∧ n = emptyPacketLimit ∧ x = .error (.transport (.emptyPackets block)) ∧ o' = o) ∨
      ∃ es, o.Saw es o' ∧ some 0 ∉ answersIn es ∧
        (left = 0 ∧ answersIn es = [] ∨
          0 < left ∧ n < emptyPacketLimit ∧ (answersIn es).length = 1) ∧
        (failureOf x = some (.transport (.emptyPackets block)) → src.Imitates block es) := by
  cases h with
  | full h =>
    exact .inr ⟨[], .nothing o, List.not_mem_nil, .inl ⟨h, rfl⟩, (by simp)⟩
  | tired hleft h => exact .inl ⟨hleft, h, rfl, rfl⟩
  | exhausted hleft hn h =>
    exact .inr ⟨_, (saw_exhausted h).2, by simp [answersIn, Event.answer?], .inr ⟨hleft, hn, rfl⟩,
      (by simp)⟩
  | failed hleft hn h =>
    obtain ⟨-, hsaw, hblames⟩ := saw_failed block h
    refine .inr ⟨_, hsaw, by simp [answersIn, Event.answer?], .inr ⟨hleft, hn, rfl⟩, fun hx => ?_⟩
    rw [Option.some_inj.1 hx] at hblames
    exact ⟨_, List.mem_singleton_self _, rfl, hblames⟩
  | @overrun p _ _ hleft hn h hlarge =>
    refine .inr ⟨_, (saw_handed h).2.append (src.saw_release _ _), ?_, .inr ⟨hleft, hn, rfl⟩,
      (by simp)⟩
    intro hzero
    have hempty : 0 = p.readable := Option.some_inj.1 (List.mem_singleton.1 hzero)
    omega

/-- **A gathering read asks its reader no more often than the bytes that it wants allow.** -/
theorem heard_gather {wanted : Nat} {got : List Bytes} {x : Except Failure Unit}
    (hwanted : wanted < UInt64.size)
    (h : src.observed.gather block wanted emptyPacketLimit [] r o = (x, got, r', o')) :
    ∃ es, o.Saw es o' ∧ (answersIn es).length ≤ emptyPacketLimit * wanted ∧
      src.Tolerates block es (failureOf x) := by
  obtain ⟨ps, r₁, o₁, hgathers, -, hstops⟩ := gathered hwanted h
  have hturns := hgathers.hands.saw.2
  have hcount := Packet.length_add_le fun qs hqs hne => (hgathers.hungry qs hqs hne).2
  -- a byte that is still missing is worth as many packets as a reader is allowed
  have hmissing (hleft : 0 < wanted - (unreadIn ps).length) :
      emptyPacketLimit * (unreadIn ps).length + emptyPacketLimit ≤ emptyPacketLimit * wanted :=
    Nat.mul_le_mul_left emptyPacketLimit (Nat.lt_of_sub_pos hleft)
  rcases hstops.heard with ⟨hleft, htired, rfl, rfl⟩ | ⟨es, hes, has, hstop, htold⟩
  · refine ⟨_, hturns, ?_, ?_⟩
    · have hroom := hmissing hleft
      rw [answersIn_turnsOf, List.length_map]
      omega
    · have hsuffix := Packet.replicate_emptiesAfter_suffix 0 ps
      rw [htired, List.replicate_zero, List.nil_append] at hsuffix
      have hwearies : Wearies (answersIn (turnsOf r.number ps)) := by
        rw [answersIn_turnsOf]
        exact hsuffix.isInfix
      exact ⟨fun _ => rfl, fun _ => .inl hwearies⟩
  · have hlast : emptiesAfter 0 ps < emptyPacketLimit := by
      rcases hstop with ⟨hfull, -⟩ | ⟨-, hn, -⟩
      · rw [hgathers.emptiesAfter_of_full (Nat.le_of_sub_eq_zero hfull)]
        decide
      · exact hn
    refine ⟨_, hturns.append hes, ?_, ?_⟩
    · rw [answersIn_append, answersIn_turnsOf, List.length_append, List.length_map]
      rcases hstop with ⟨hfull, hnone⟩ | ⟨hleft, -, hone⟩
      · have hall := Nat.mul_le_mul_left emptyPacketLimit hgathers.length_le
        rw [hgathers.emptiesAfter_of_full (Nat.le_of_sub_eq_zero hfull)] at hcount
        rw [hnone, List.length_nil]
        omega
      · have hroom := hmissing hleft
        omega
    · constructor
      case gives_up =>
        intro hwearies
        rw [answersIn_append, answersIn_turnsOf] at hwearies
        exact absurd hwearies (hgathers.not_wearies hlast has)
      case gave_up =>
        intro hx
        exact .inr (.right _ (htold hx))

end Source

/-! ## Calls -/

namespace Stream

variable [Journaled W]

theorem heard_step (src : Source W R) {op : Op} (hop : op.reads = true)
    (p : Stream (Numbered R) × Observed W) :
    src.Heard p.1.block emptyPacketLimit (step src.observed op p).events
      (failureOf (step src.observed op p).outcome.result) := by
  cases op with
  | readByte =>
    rcases hr : p.1.readSome src.observed 1 p.2 with ⟨x, q⟩
    obtain ⟨es, hes, hheard⟩ := heard_readSome hr
    rw [step_readByte hr, Step.events_mk hes, failureOf_map]
    exact hheard
  | read memory offset count =>
    cases hd : p.1.destination? memory offset count with
    | error f =>
      obtain ⟨m, rfl⟩ := destination?_error hd
      rw [step_read_refused hd, Step.events_mk (.nothing p.2)]
      exact .quiet (by decide) rfl (by simp)
    | ok d =>
      rcases hr : p.1.readSome src.observed count p.2 with ⟨x, q⟩
      obtain ⟨es, hes, hheard⟩ := heard_readSome hr
      rw [step_read hd hr, Step.events_mk hes, failureOf_map]
      exact hheard
  | _ => simp [Op.reads] at hop

theorem heard_readAt {src : Source W R} {s : Stream (Numbered R)} {o o' : Observed W}
    {target : Int64} {count : UInt64} {x : Except Failure (Option Nat)} {b : Bytes}
    (h : s.readAt src.observed target count o = (x, b, o')) :
    ∃ es, o.Saw es o' ∧ (answersIn es).length ≤ emptyPacketLimit * count.toNat ∧
      src.Tolerates s.block es (failureOf x) := by
  cases readAt_cases h with
  | shut | idle | outside =>
    exact ⟨[], .nothing o, Nat.zero_le _, .quiet rfl (by simp)⟩
  | refused hcreate =>
    obtain ⟨hsaw, hblames⟩ := Source.saw_refused s.block hcreate
    refine ⟨_, hsaw, Nat.zero_le _, .quiet rfl fun hx => ?_⟩
    rw [Option.some_inj.1 hx] at hblames
    exact ⟨_, List.mem_singleton_self _, rfl, hblames⟩
  | @gathered r r₁ r₂ o₀ o₁ o₂ _ got y z hcreate hgather hclose hnoted =>
    obtain ⟨es, hes, hlength, htolerates⟩ := Source.heard_gather count.toNat_lt hgather
    obtain ⟨hclosed, hblames⟩ := Source.saw_close s.block hclose
    have hsaw := ((Source.saw_made hcreate).2.append hes).append (hclosed.noted hnoted)
    have hall : answersIn ([.created o.readers target.toUInt64 count true] ++ es ++
        [.readerClosed r₁.number (Source.succeeded z)]) = answersIn es := by
      rw [answersIn_append, answersIn_append]
      exact List.append_nil _
    refine ⟨_, hsaw, hall ▸ hlength, ?_⟩
    constructor
    case gives_up =>
      intro hwearies
      rw [hall] at hwearies
      have hy := failureOf_eq_some.1 (htolerates.gives_up hwearies)
      rw [hy]
      rfl
    case gave_up =>
      intro hx
      rw [failureOf_eq_some] at hx
      rcases verdict_eq_error hx with rfl | ⟨rfl, rfl⟩
      · rcases htolerates.gave_up rfl with hwearies | htold
        · exact .inl (hall.symm ▸ hwearies)
        · exact .inr ((htold.right _).left _)
      · exact .inr (.right _ ⟨_, List.mem_singleton_self _, rfl, hblames _ rfl⟩)

theorem heard_visit (src : Source W R) (target : Int64) (memory : Option Destination)
    (offset count : UInt64) (p : Stream (Numbered R) × Observed W) :
    (answersIn (step src.observed (.readAt target memory offset count) p).events).length ≤
        emptyPacketLimit * count.toNat ∧
      src.Tolerates p.1.block (step src.observed (.readAt target memory offset count) p).events
        (failureOf (step src.observed (.readAt target memory offset count) p).outcome.result) := by
  cases hd : p.1.destination? memory offset count with
  | error f =>
    obtain ⟨m, rfl⟩ := destination?_error hd
    have hstep : step src.observed (.readAt target memory offset count) p =
        ⟨.readAt target memory offset count, p, { result := .error (.misuse m), memory }, p⟩ := by
      simp only [step, perform, readAtInto, hd]
      rfl
    rw [hstep, Step.events_mk (.nothing p.2)]
    exact ⟨Nat.zero_le _, .quiet rfl (by simp)⟩
  | ok d =>
    rcases hr : p.1.readAt src.observed target count p.2 with ⟨x, b, o'⟩
    obtain ⟨es, hes, hheard⟩ := heard_readAt hr
    have hstep : step src.observed (.readAt target memory offset count) p =
        ⟨.readAt target memory offset count, p,
          { result := x.map .count, memory := some (d.put offset.toNat b) }, (p.1, o')⟩ := by
      simp only [step, perform, readAtInto, hd, hr]
    rw [hstep, Step.events_mk hes, failureOf_map]
    exact hheard

/-- How a call goes about empty packets. -/
structure Step.Patient (src : Source W R) (st : Step (Observed W) (Numbered R)) : Prop where
  /-- A read in sequence asks its reader no more often than there may be empty packets in a row. -/
  sequential : st.op.reads = true → (answersIn st.events).length ≤ emptyPacketLimit
  /-- A read at a position asks its reader no more often than that for every byte that it wants. -/
  positioned : ∀ target memory offset count, st.op = .readAt target memory offset count →
    (answersIn st.events).length ≤ emptyPacketLimit * count.toNat
  /-- If there are too many empty packets in a row, that is what a read tells. -/
  gives_up : st.op.reads = true ∨ st.op.visits = true → Wearies (answersIn st.events) →
    st.outcome.result = .error (.transport (.emptyPackets st.before.1.block))
  /-- It tells so in no other case, unless it is the source that fails in these words. -/
  gives_up_iff : st.op.reads = true ∨ st.op.visits = true →
    ¬src.Imitates st.before.1.block st.events →
    (st.outcome.result = .error (.transport (.emptyPackets st.before.1.block)) ↔
      Wearies (answersIn st.events))

theorem patient_step (src : Source W R) (op : Op) (p : Stream (Numbered R) × Observed W) :
    (step src.observed op p).Patient src := by
  have hboth (h : op.reads = true ∨ op.visits = true) :
      src.Tolerates p.1.block (step src.observed op p).events
        (failureOf (step src.observed op p).outcome.result) := by
    rcases h with hreads | hvisits
    · exact (heard_step src hreads p).tolerates
    · cases op with
      | readAt target memory offset count => exact (heard_visit src target memory offset count p).2
      | _ => simp [Op.visits] at hvisits
  constructor
  case sequential => exact fun hreads => (heard_step src hreads p).length_le
  case positioned =>
    rintro target memory offset count rfl
    exact (heard_visit src target memory offset count p).1
  case gives_up =>
    intro hop hwearies
    exact failureOf_eq_some.1 ((hboth hop).gives_up hwearies)
  case gives_up_iff =>
    intro hop hsource
    constructor
    · intro htold
      exact ((hboth hop).gave_up (failureOf_eq_some.2 htold)).resolve_right hsource
    · intro hwearies
      exact failureOf_eq_some.1 ((hboth hop).gives_up hwearies)

/-- **However a reader behaves, a read is done with it after so many packets.**  For every source
and every run of calls. -/
theorem patient_history (src : Source W R) (w : W) (block length : UInt64) (ops : List Op) :
    ∀ st ∈ history src.observed ops (start block length, { inner := w }), st.Patient src :=
  forall_mem_history (I := fun _ => True) (fun op p _ => ⟨patient_step src op p, trivial⟩) trivial
    ops

/-- A block of seven bytes.  The first reader hands out fifteen empty packets in front of each of
two bytes; the second one hands out twenty-six of them and then a byte. -/
def sparse : SourceScript where
  block := [1, 2, 3, 4, 5, 6, 7]
  readers := [{ sizes := List.replicate 15 0 ++ 1 :: (List.replicate 15 0 ++ [1]) },
    { sizes := List.replicate 26 0 ++ [1] }]

/-- A read of two bytes asks thirty-two times, as often as it may.  Of two reads in sequence the
first one gives up after sixteen empty packets.  The second one meets the ten that are left. -/
theorem patient_history_sparse :
    ∃ visit first second, history (sparse.source (W := Site)).observed
        [.readAt 0 (some ⟨2, [9, 9]⟩) 0 2, .readByte, .readByte] (start 1 7, { inner := {} }) =
          [visit, first, second] ∧
      visit.outcome.result = .ok (.count (some 2)) ∧ (answersIn visit.events).length = 32 ∧
      first.outcome.result = .error (.transport (.emptyPackets 1)) ∧
      answersIn first.events = List.replicate 16 (some 0) ∧
      second.outcome.result = .ok (.byte (some 1)) ∧
      answersIn second.events = List.replicate 10 (some 0) ++ [some 1] ∧
      visit.Patient sparse.source ∧ first.Patient sparse.source ∧ second.Patient sparse.source := by
  have hall := patient_history sparse.source ({} : Site) 1 7
    [.readAt 0 (some ⟨2, [9, 9]⟩) 0 2, .readByte, .readByte]
  refine ⟨_, _, _, rfl, ?_, ?_, ?_, ?_, ?_, ?_, hall _ (.head _), hall _ (.tail _ (.head _)),
    hall _ (.tail _ (.tail _ (.head _)))⟩
  all_goals cbv

end Stream

end BlockAccess
