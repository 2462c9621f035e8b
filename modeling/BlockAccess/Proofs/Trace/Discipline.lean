import BlockAccess.Proofs.Stream.Upheld
import BlockAccess.Proofs.Trace.Desk
import BlockAccess.Site
import BlockAccess.Source.Scripted

/-!
# Readers and packets come back

A source under observation tells of every reader and every packet.  Here it is shown that a stream
uses any source, whatever fails, like the desk of `Desk.Turns` admits: `turns_step` says so for one
call, with the desk read off the stream before and after it, and `turns_run` for a run.

`Disciplined` is what this comes to for a run in which the stream is closed.
-/

namespace BlockAccess
namespace Stream

variable {W R : Type} [Journaled W]

/-- What was seen of the source during a step. -/
def Step.events (st : Step (Observed W) (Numbered R)) : List Event :=
  st.after.2.events.toList.drop st.before.2.events.size

/-- The events of a step, marked with the session that they belong to. -/
def Step.entries (st : Step (Observed W) (Numbered R)) : List Entry :=
  st.events.map (Entry.mk st.op.visits)

/-- What was seen of the source during a run. -/
def events (t : List (Step (Observed W) (Numbered R))) : List Event := t.flatMap Step.events

/-- The events of a run, marked with the sessions that they belong to. -/
def entries (t : List (Step (Observed W) (Numbered R))) : List Entry := t.flatMap Step.entries

omit [Journaled W] in
theorem map_event_entries (t : List (Step (Observed W) (Numbered R))) :
    (entries t).map Entry.event = events t := by
  simp [entries, events, List.map_flatMap, Step.entries, Function.comp_def]

/-! ## The desk of a stream -/

/-- Where a session stands that has this reader and this packet. -/
def slotOf : Option (Numbered R) → Option Packet → Slot
  | none, _ => .idle
  | some r, none => .reading r.number
  | some r, some p => .holding r.number p.serial

/-- The desk of a stream between two calls. -/
def deskOf (p : Stream (Numbered R) × Observed W) : Desk where
  readers := p.2.readers
  packets := p.2.packets
  session := slotOf p.1.reader p.1.packet
  shut := p.1.closed

/-- A session of a kind went by the rules since it stood as in `d`, when the events `es` had been
seen. -/
structure Watched (v : Bool) (d : Desk) (es : List Event) (r : Option (Numbered R))
    (p : Option Packet) (o : Observed W) : Prop where
  tidy : r = none → p = none
  turns : ∃ es', o.events.toList = es ++ es' ∧
    d.Turns (es'.map (Entry.mk v))
      ({ d with readers := o.readers, packets := o.packets }.put v (slotOf r p))

omit [Journaled W] in
/-- One more event that the session admits. -/
theorem Watched.see {v : Bool} {d : Desk} {es : List Event} {r r' : Option (Numbered R)}
    {p p' : Option Packet} {o o' : Observed W} {e : Event} (hd : d.shut = false)
    (h : Watched v d es r p o) (htidy : r' = none → p' = none)
    (he : (slotOf r p).Turn o.readers o.packets e (slotOf r' p'))
    (hevents : o'.events = o.events.push e) (hreaders : o'.readers = o.readers + e.newReaders)
    (hpackets : o'.packets = o.packets + e.newPackets) : Watched v d es r' p' o' := by
  obtain ⟨es', hes, ht⟩ := h.turns
  refine ⟨htidy, es' ++ [e], ?_, ?_⟩
  · rw [hevents, Array.toList_push, hes, List.append_assoc]
  · have hturn := Desk.Turn.slot
      (d := { d with readers := o.readers, packets := o.packets }.put v (slotOf r p)) (v := v)
      (by rw [Desk.shut_put]; exact hd) (by simpa using he)
    rw [List.map_append]
    have hsnoc := ht.snoc hturn
    rw [hreaders, hpackets]
    cases v
    · exact hsnoc
    · exact hsnoc

/-- Every operation of a source under observation is an event that the session admits. -/
theorem upholds_watched (src : Source W R) (offset length : UInt64) {v : Bool} {d : Desk}
    (hd : d.shut = false) (es : List Event) :
    src.observed.Upholds offset length (Watched (W := W) (R := R) v d es) where
  note _ h := ⟨h.tidy, h.turns⟩
  create {p o x o'} h hx := by
    obtain rfl := h.tidy rfl
    rcases hc : src.create offset length o.inner with ⟨result, w⟩
    simp only [Source.observed, hc, Prod.mk.injEq] at hx
    obtain ⟨rfl, rfl⟩ := hx
    cases result with
    | error f => exact h.see hd (fun _ => rfl) .refused rfl rfl rfl
    | ok r => exact h.see hd (fun _ => rfl) .made rfl rfl rfl
  next {r o x r' o'} h hx := by
    simp only [Source.observed] at hx
    split at hx
    all_goals
      simp only [Prod.mk.injEq] at hx
      obtain ⟨rfl, rfl, rfl⟩ := hx
    · exact h.see hd (fun _ => rfl) .failed rfl rfl rfl
    · exact h.see hd (fun _ => rfl) .exhausted rfl rfl rfl
    · exact h.see hd (fun hr => by simp at hr) .handed rfl rfl rfl
  release {r p o} h := by
    cases r with
    | none => exact absurd (h.tidy rfl) (by simp)
    | some r => exact h.see hd (fun _ => rfl) .returned rfl rfl rfl
  close {r o x r' o'} h hx := by
    simp only [Source.observed, Prod.mk.injEq] at hx
    obtain ⟨-, -, rfl⟩ := hx
    exact h.see hd (fun _ => rfl) .closed rfl rfl rfl
  unread {r p o} b h := by
    cases r with
    | none => exact absurd (h.tidy rfl) (by simp)
    | some r => exact ⟨fun hr => by simp at hr, h.turns⟩

/-! ## Calls and runs -/

/-- A stream between two calls: a packet is there only with a reader, and neither once the stream is
closed. -/
structure Settled (s : Stream R) : Prop where
  tidy : s.Tidy
  reader_of_closed : s.closed = true → s.reader = none

omit [Journaled W] in
theorem watched_start (v : Bool) {p : Stream (Numbered R) × Observed W} {r : Option (Numbered R)}
    {k : Option Packet} (htidy : r = none → k = none)
    (hslot : (deskOf p).slot v = slotOf r k) :
    Watched v (deskOf p) p.2.events.toList r k p.2 := by
  refine ⟨htidy, [], by rw [List.append_nil], ?_⟩
  have hput : { deskOf p with readers := p.2.readers, packets := p.2.packets }.put v (slotOf r k) =
      deskOf p := by
    rw [← hslot]
    cases v <;> rfl
  rw [hput]
  exact .nil _

omit [Journaled W] in
theorem Step.events_eq {st : Step (Observed W) (Numbered R)} {es : List Event}
    (h : st.after.2.events.toList = st.before.2.events.toList ++ es) : st.events = es := by
  rw [Step.events, h, ← Array.length_toList, List.drop_left]

theorem turns_step_close (src : Source W R) {p : Stream (Numbered R) × Observed W}
    (hp : Settled p.1) (hopen : p.1.closed = false) :
    (∃ es c, (step src.observed .close p).events = es ++ [.sourceClosed c]) ∧
      (step src.observed .close p).after.2.events.toList =
        p.2.events.toList ++ (step src.observed .close p).events ∧
      (deskOf p).Turns (step src.observed .close p).entries
        (deskOf (step src.observed .close p).after) ∧
      (step src.observed .close p).after.1.closed = true ∧
      Settled (step src.observed .close p).after.1 := by
  have hu : src.observed.Upholds 0 0
      (Watched (W := W) (R := R) false (deskOf p) p.2.events.toList) :=
    upholds_watched src 0 0 hopen _
  obtain ⟨o, hw, hafter⟩ := hu.closing hopen (watched_start false hp.tidy rfl)
  have hs : (step src.observed .close p).after.1 =
      { p.1 with closed := true, reader := none, packet := none } := by
    have hsnd := close_snd src.observed p.1 p.2
    rw [if_neg (by simp [hopen])] at hsnd
    exact hsnd
  have ho : (step src.observed .close p).after.2 = (src.observed.shutDown o).2 := hafter
  obtain ⟨es, hes, ht⟩ := hw.turns
  have hseen : (step src.observed .close p).after.2.events.toList =
      p.2.events.toList ++ (es ++ [.sourceClosed (Source.succeeded (src.shutDown o.inner).1)]) := by
    rw [ho, ← List.append_assoc]
    exact (Array.toList_push ..).trans (congrArg (· ++ _) hes)
  have hevents := Step.events_eq hseen
  refine ⟨⟨es, _, hevents⟩, hevents ▸ hseen, ?_, by rw [hs], ?_⟩
  rotate_left
  · rw [hs]
    exact ⟨fun _ => rfl, fun _ => rfl⟩
  rw [Step.entries, hevents, List.map_append]
  have hdesk : deskOf (step src.observed .close p).after =
      { { deskOf p with readers := o.readers, packets := o.packets }.put false .idle with
        shut := true } := by
    simp only [deskOf, hs, ho]
    rfl
  rw [hdesk]
  exact ht.snoc (.shut hopen rfl rfl)

/-- **A call uses its source as the desk admits.** -/
theorem turns_step (src : Source W R) (op : Op) {p : Stream (Numbered R) × Observed W}
    (hp : Settled p.1) :
    (step src.observed op p).after.2.events.toList =
        p.2.events.toList ++ (step src.observed op p).events ∧
      (deskOf p).Turns (step src.observed op p).entries (deskOf (step src.observed op p).after) ∧
      Settled (step src.observed op p).after.1 := by
  by_cases hclosed : p.1.closed = true
  · obtain ⟨hafter, -⟩ := step_closed src.observed op hclosed
    have hevents : (step src.observed op p).events = [] :=
      Step.events_eq (by rw [hafter, List.append_nil]; rfl)
    rw [Step.entries, hevents, hafter, List.append_nil]
    exact ⟨rfl, .nil _, hp⟩
  have hopen : p.1.closed = false := by simpa using hclosed
  by_cases hclose : op = .close
  · subst hclose
    obtain ⟨-, hseen, ht, -, hs⟩ := turns_step_close src hp hopen
    exact ⟨hseen, ht, hs⟩
  obtain ⟨-, -, hkept, htidy⟩ := step_keeps src.observed hclose hp.tidy
  have hsettled : Settled (step src.observed op p).after.1 :=
    ⟨htidy, fun hc => by rw [hkept, hopen] at hc; simp at hc⟩
  by_cases hseq : op.sequential = true
  · have hw := (upholds_watched src _ _ hopen _).step hseq (watched_start false hp.tidy rfl)
    obtain ⟨es, hes, ht⟩ := hw.turns
    have hvisits : op.visits = false := by cases op <;> simp_all [Op.sequential, Op.visits]
    refine ⟨(Step.events_eq hes).symm ▸ hes, ?_, hsettled⟩
    rw [Step.entries, Step.events_eq hes, show (step src.observed op p).op = op from rfl, hvisits]
    have hdesk : deskOf (step src.observed op p).after =
        { deskOf p with
          readers := (step src.observed op p).after.2.readers
          packets := (step src.observed op p).after.2.packets }.put false
          (slotOf (step src.observed op p).after.1.reader
            (step src.observed op p).after.1.packet) := by
      rw [deskOf, hkept]
      rfl
    rw [hdesk]
    exact ht
  · cases op with
    | readAt target memory start count =>
      have hvisit : (step src.observed (.readAt target memory start count) p).after.1 = p.1 ∧
          Watched true (deskOf p) p.2.events.toList none none
            (step src.observed (.readAt target memory start count) p).after.2 :=
        (upholds_watched src _ _ hopen _).step_readAt (watched_start true (fun _ => rfl) rfl)
      obtain ⟨hafter, hw⟩ := hvisit
      obtain ⟨es, hes, ht⟩ := hw.turns
      refine ⟨(Step.events_eq hes).symm ▸ hes, ?_, hsettled⟩
      rw [Step.entries, Step.events_eq hes]
      have hdesk : deskOf (step src.observed (.readAt target memory start count) p).after =
          { deskOf p with
            readers := (step src.observed (.readAt target memory start count) p).after.2.readers
            packets := (step src.observed (.readAt target memory start count) p).after.2.packets
          }.put true .idle := by
        rw [deskOf, hafter]
        rfl
      rw [hdesk]
      exact ht
    | close => exact absurd rfl hclose
    | _ => simp [Op.sequential] at hseq

/-- **A run uses its source as the desk admits.** -/
theorem turns_run (src : Source W R) (ops : List Op) {p : Stream (Numbered R) × Observed W}
    (hp : Settled p.1) :
    (run src.observed ops p).2.events.toList =
        p.2.events.toList ++ events (history src.observed ops p) ∧
      (deskOf p).Turns (entries (history src.observed ops p)) (deskOf (run src.observed ops p)) ∧
      Settled (run src.observed ops p).1 := by
  induction ops generalizing p with
  | nil => exact ⟨(List.append_nil _).symm, .nil _, hp⟩
  | cons op ops ih =>
    obtain ⟨hseen, ht, hs⟩ := turns_step src op hp
    obtain ⟨hseen', ht', hs'⟩ := ih hs
    refine ⟨?_, ht.append ht', hs'⟩
    rw [run_cons, hseen', hseen, List.append_assoc, history_cons, events, events, List.flatMap_cons]

/-! ### Runs around the first closing -/

theorem closed_run_of_notMem (src : Source W R) {ops : List Op} (hops : .close ∉ ops)
    {p : Stream R × W} (hp : p.1.Tidy) : (run src ops p).1.closed = p.1.closed := by
  induction ops generalizing p with
  | nil => rfl
  | cons op ops ih =>
    rw [List.mem_cons, not_or] at hops
    obtain ⟨hne, hops⟩ := hops
    obtain ⟨-, -, hkept, htidy⟩ := step_keeps src (Ne.symm hne) hp
    rw [run_cons, ih hops htidy, hkept]

/-- Once the stream is closed nothing happens any more. -/
theorem quiet_of_closed (src : Source W R) {p : Stream (Numbered R) × Observed W}
    (hp : p.1.closed = true) (ops : List Op) :
    (run src.observed ops p).1.closed = true ∧
      ∀ st ∈ history src.observed ops p, st.events = [] ∧
        (st.op.needsOpen = true → st.outcome.result = .error (.misuse .closedStream)) := by
  have hkeeps (op : Op) (q : Stream (Numbered R) × Observed W) (hq : q.1.closed = true) :
      (step src.observed op q).after.1.closed = true := by
    rw [(step_closed src.observed op hq).1, hq]
  refine ⟨run_keeps hkeeps hp ops, forall_mem_history (fun op q hq => ⟨?_, hkeeps op q hq⟩) hp ops⟩
  obtain ⟨hafter, hresult⟩ := step_closed src.observed op hq
  exact ⟨Step.events_eq (by rw [hafter, List.append_nil]; rfl), hresult⟩

/-! ## The discipline -/

/-- Reader `r` was made for the reads in sequence and is not closed yet. -/
def OpenAfter (es : List Entry) (r : Nat) : Prop :=
  es.countP (fun e => !e.visiting && e.event.closes r) <
    es.countP (fun e => !e.visiting && e.event.makes r)

/-- How a run in which the stream is closed uses its source. -/
structure Disciplined (t : List (Step (Observed W) (Numbered R))) : Prop where
  /-- A reader that comes to be is closed, and both happen once. -/
  readers : ∀ r, (events t).countP (Event.makes r) ≤ 1 ∧
    (events t).countP (Event.closes r) = (events t).countP (Event.makes r)
  /-- It is closed after it came to be. -/
  readers_order : ∀ r o n, .created r o n true ∈ events t →
    ∃ c, [Event.created r o n true, .readerClosed r c].Sublist (events t)
  /-- A packet that is handed out is given back, and both happen once. -/
  packets : ∀ m, (events t).countP (Event.hands m) ≤ 1 ∧
    (events t).countP (Event.returns m) = (events t).countP (Event.hands m)
  /-- It is given back after it was handed out and before its reader is closed. -/
  packets_order : ∀ r m size, .packet r m size ∈ events t → ∃ size' unread c,
    [Event.packet r m size, .released m size' unread, .readerClosed r c].Sublist (events t)
  /-- At no time are there two readers for the reads in sequence. -/
  one_reader : ∀ es es', entries t = es ++ es' → ∀ r r', OpenAfter es r → OpenAfter es r' → r = r'
  /-- A read at a position closes the readers that it makes, and no others. -/
  visits : ∀ st ∈ t, st.op.visits = true →
    ∀ r, st.events.countP (Event.makes r) = st.events.countP (Event.closes r)
  /-- The source is closed once, at the end of the first closing.  After that nothing happens, and
  who needs an open stream is told so. -/
  closing : (events t).countP Event.shuts = 1 ∧ ∃ pre st post, t = pre ++ st :: post ∧
    (∀ s ∈ pre, s.op ≠ .close) ∧ st.op = .close ∧ (∃ es c, st.events = es ++ [.sourceClosed c]) ∧
    ∀ s ∈ post, s.events = [] ∧
      (s.op.needsOpen = true → s.outcome.result = .error (.misuse .closedStream))

omit [Journaled W] in
theorem countP_entries (f : Event → Bool) (t : List (Step (Observed W) (Numbered R))) :
    (entries t).countP (fun e => f e.event) = (events t).countP f := by
  rw [← map_event_entries, List.countP_map]
  rfl

/-- A read at a position has its reader to itself. -/
theorem visits_step (src : Source W R) {op : Op} (hop : op.visits = true)
    {p : Stream (Numbered R) × Observed W} (hp : Settled p.1) (r : Nat) :
    (step src.observed op p).events.countP (Event.makes r) =
      (step src.observed op p).events.countP (Event.closes r) := by
  have hadd := (turns_step src op hp).2.1.has_add id r
  have hentries : (step src.observed op p).entries =
      (step src.observed op p).events.map (Entry.mk true) := by
    rw [Step.entries, show (step src.observed op p).op = op from rfl, hop]
  rw [hentries, List.countP_map, List.countP_map] at hadd
  exact hadd

section Balanced

variable {t : List (Step (Observed W) (Numbered R))} {d d' : Desk}

omit [Journaled W] in
theorem makes_balanced (ht : d.Turns (entries t) d') (hd : d.Idle) (hd' : d'.Idle) (r : Nat) :
    (events t).countP (Event.makes r) ≤ 1 ∧
      (events t).countP (Event.closes r) = (events t).countP (Event.makes r) := by
  have hle := (ht.makes_le r).1
  have hadd := ht.has_add (fun _ => true) r
  rw [hd.hasIn_eq_zero, hd'.hasIn_eq_zero] at hadd
  simp only [Bool.true_and, countP_entries (Event.makes r), countP_entries (Event.closes r)] at hadd
  rw [countP_entries (Event.makes r)] at hle
  constructor
  · split at hle <;> omega
  · omega

omit [Journaled W] in
theorem hands_balanced (ht : d.Turns (entries t) d') (hd : d.Idle) (hd' : d'.Idle) (m : Nat) :
    (events t).countP (Event.hands m) ≤ 1 ∧
      (events t).countP (Event.returns m) = (events t).countP (Event.hands m) := by
  have hle := (ht.hands_le m).1
  have hadd := ht.holds_add m
  rw [hd.holds_eq_zero, hd'.holds_eq_zero, countP_entries (Event.hands m),
    countP_entries (Event.returns m)] at hadd
  rw [countP_entries (Event.hands m)] at hle
  constructor
  · split at hle <;> omega
  · omega

omit [Journaled W] in
theorem eq_of_openAfter (ht : d.Turns (entries t) d') (hd : d.Idle) {es es' : List Entry}
    (hes : entries t = es ++ es') {r r' : Nat} (hr : OpenAfter es r) (hr' : OpenAfter es r') :
    r = r' := by
  rw [hes] at ht
  obtain ⟨d₁, h₁, -⟩ := ht.split
  have hsession (q : Nat) (hq : OpenAfter es q) : d₁.session.has q ≠ 0 := by
    have hadd := h₁.has_add (!·) q
    rw [hd.hasIn_eq_zero] at hadd
    have hhas : d₁.hasIn (!·) q = d₁.session.has q := by simp [Desk.hasIn]
    rw [hhas] at hadd
    unfold OpenAfter at hq
    omega
  exact Slot.eq_of_has (hsession r hr) (hsession r' hr')

end Balanced

theorem settled_start {block length : UInt64} : Settled (start (R := R) block length) :=
  ⟨fun _ => rfl, fun _ => rfl⟩

/-- A stream that is closed in the course of some calls was open before and has its sessions over
afterwards. -/
theorem closing_run (src : Source W R) (w : W) (block length : UInt64) (pre post : List Op)
    (hpre : .close ∉ pre) :
    (run src.observed pre (start block length, { inner := w })).1.closed = false ∧
      (run src.observed (pre ++ .close :: post) (start block length, { inner := w })).1.closed =
        true := by
  have hopen : (run src.observed pre (start block length, { inner := w })).1.closed = false :=
    closed_run_of_notMem src.observed hpre settled_start.tidy
  obtain ⟨-, -, hs⟩ := turns_run src pre (p := (_, { inner := w })) settled_start
  obtain ⟨-, -, -, hclosed, -⟩ := turns_step_close src hs hopen
  rw [run_append, run_cons]
  exact ⟨hopen, (quiet_of_closed src hclosed post).1⟩

/-- **The source gets back what it gave.**  Take a stream over any source, whatever of it fails, and
any calls that close the stream at some time.  The readers that come to be and the packets that they
hand out are given back once each, and in order; the source is closed once and last.  All this is
about the steps of the run, and nothing was seen besides them. -/
theorem disciplined_history (src : Source W R) (w : W) (block length : UInt64) {ops : List Op}
    (hclose : .close ∈ ops) :
    (run src.observed ops (start block length, { inner := w })).2.events.toList =
        events (history src.observed ops (start block length, { inner := w })) ∧
      Disciplined (history src.observed ops (start block length, { inner := w })) := by
  obtain ⟨pre, post, rfl, hpre⟩ := List.eq_append_cons_of_mem hclose
  obtain ⟨hopen, hclosed⟩ := closing_run src w block length pre post hpre
  obtain ⟨hseen, ht, hs⟩ := turns_run src (pre ++ .close :: post)
    (p := (start block length, { inner := w })) settled_start
  have hstart : (deskOf (start (R := Numbered R) block length, { inner := w })).Idle := by
    intro v
    cases v <;> rfl
  have hend : (deskOf (run src.observed (pre ++ .close :: post)
      (start block length, { inner := w }))).Idle := by
    intro v
    cases v
    · simp [deskOf, Desk.slot, hs.reader_of_closed hclosed, slotOf]
    · rfl
  refine ⟨hseen, ?_⟩
  constructor
  case readers => exact makes_balanced ht hstart hend
  case packets => exact hands_balanced ht hstart hend
  case readers_order =>
    intro r o n hr
    rw [← map_event_entries] at hr ⊢
    exact ht.closed_of_created hend hr
  case packets_order =>
    intro r m size hm
    rw [← map_event_entries] at hm ⊢
    exact ht.returned_of_packet hend hm
  case one_reader => exact fun es es' hes r r' => eq_of_openAfter ht hstart hes
  case visits =>
    refine forall_mem_history (I := fun q => Settled q.1) (fun op q hq => ⟨?_, ?_⟩)
      settled_start _
    · exact fun hop r => visits_step src hop hq r
    · exact (turns_step src op hq).2.2
  case closing =>
    constructor
    · have hadd := ht.shuts_add
      rw [countP_entries, deskOf, deskOf, hclosed] at hadd
      exact hadd
    · obtain ⟨-, -, hs₁⟩ := turns_run src pre (p := (_, { inner := w })) settled_start
      obtain ⟨hshut, -, -, hclosed₁, -⟩ := turns_step_close src hs₁ hopen
      rw [history_append]
      refine ⟨_, _, _, rfl, fun s hs hop => hpre ?_, rfl, hshut, ?_⟩
      · rw [← map_op_history src.observed pre, ← hop]
        exact List.mem_map_of_mem hs
      · exact (quiet_of_closed src hclosed₁ post).2

/-- A source that is hard to get along with: its first reader starts with an empty packet and cannot
be closed, the second one fails after a packet, the third one has more than it was asked for, the
fourth is refused, and closing the source fails. -/
def unruly : SourceScript where
  block := [1, 2, 3, 4, 5, 6, 7]
  readers :=
    [{ sizes := [0, 2], closeFails := true }, { failAt := some 1 },
      { sizes := [7], unbounded := true }]
  failingCreates := [3]
  shutDownFails := true

/-- A run that meets all of this, and goes on after the stream is closed. -/
def unrulyRun : List Op :=
  [.readByte, .seek 4, .readAt 0 (some ⟨5, [0, 0, 0, 0, 0]⟩) 0 5, .readByte, .seek 0, .readByte,
    .close, .readByte, .close]

theorem disciplined_history_unruly :
    Op.close ∈ unrulyRun ∧
      (run (unruly.source (W := Site)).observed unrulyRun
          (start 1 6, { inner := {} })).2.events.toList =
        events (history (unruly.source (W := Site)).observed unrulyRun
          (start 1 6, { inner := {} })) ∧
      Disciplined (history (unruly.source (W := Site)).observed unrulyRun
        (start 1 6, { inner := {} })) := by
  have hclose : Op.close ∈ unrulyRun := by decide
  exact ⟨hclose, disciplined_history unruly.source ({} : Site) 1 6 hclose⟩

end Stream
end BlockAccess
