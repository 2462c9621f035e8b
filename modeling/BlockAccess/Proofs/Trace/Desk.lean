import BlockAccess.Trace

/-!
# The order in which transports are used

A stream uses its source in two kinds of sessions: one for the reads in sequence, which lasts over
many calls, and one for each read at a position, which lasts as long as that call.  `Slot` is where
a session stands and `Slot.Turn` which events it admits there and where they take it: a reader is
made in an idle session, packets come one at a time, a packet is given back before the next one is
asked for and before the reader is closed.

`Desk` has both sessions side by side, with the numbers that readers and packets get next; closing
the source ends it.  `Desk.Turns` is a run of a desk over a list of events, each marked with the
session that it belongs to.  What is said about runs here is what a discipline over resources comes
down to: who is made is closed, what is handed out is given back, and nobody comes twice.
-/

namespace BlockAccess

namespace Event

/-- The event is that reader `r` came to be. -/
def makes (r : Nat) : Event → Bool
  | created r' _ _ made => r' == r && made
  | _ => false

/-- The event is that reader `r` was closed. -/
def closes (r : Nat) : Event → Bool
  | readerClosed r' _ => r' == r
  | _ => false

/-- The event is that packet `m` was handed out. -/
def hands (m : Nat) : Event → Bool
  | packet _ m' _ => m' == m
  | _ => false

/-- The event is that packet `m` was given back. -/
def returns (m : Nat) : Event → Bool
  | released m' _ _ => m' == m
  | _ => false

/-- The event is that the source was closed. -/
def shuts : Event → Bool
  | sourceClosed _ => true
  | _ => false

theorem closes_iff {r : Nat} {e : Event} : e.closes r = true ↔ ∃ c, e = .readerClosed r c := by
  constructor
  · intro h
    cases e <;> simp [closes] at h
    exact ⟨_, by rw [h]⟩
  · rintro ⟨c, rfl⟩
    simp [closes]

/-- How many reader numbers an event uses up. -/
def newReaders : Event → Nat
  | created .. => 1
  | _ => 0

/-- How many packet numbers an event uses up. -/
def newPackets : Event → Nat
  | packet .. => 1
  | _ => 0

end Event

/-- Where a session stands: without a reader, with one, or with one and a packet of its. -/
inductive Slot where
  | idle
  | reading (reader : Nat)
  | holding (reader serial : Nat)
  deriving DecidableEq, Repr

namespace Slot

/-- One if the session has reader `r`, else zero. -/
def has (r : Nat) : Slot → Nat
  | idle => 0
  | reading r' | holding r' _ => if r' = r then 1 else 0

/-- One if the session holds packet `m`, else zero. -/
def holds (m : Nat) : Slot → Nat
  | holding _ m' => if m' = m then 1 else 0
  | _ => 0

/-- The events that a session admits, and where they take it.  The next reader gets the number
`readers`, and the next packet the number `packets`. -/
inductive Turn (readers packets : Nat) : Slot → Event → Slot → Prop
  | made {offset length : UInt64} :
    Turn readers packets idle (.created readers offset length true) (reading readers)
  | refused {offset length : UInt64} :
    Turn readers packets idle (.created readers offset length false) idle
  | handed {r size : Nat} :
    Turn readers packets (reading r) (.packet r packets size) (holding r packets)
  | exhausted {r : Nat} : Turn readers packets (reading r) (.exhausted r) (reading r)
  | failed {r : Nat} : Turn readers packets (reading r) (.packetFailed r) (reading r)
  | returned {r m size unread : Nat} :
    Turn readers packets (holding r m) (.released m size unread) (reading r)
  | closed {r : Nat} {cleanly : Bool} :
    Turn readers packets (reading r) (.readerClosed r cleanly) idle

variable {n k : Nat} {σ σ' : Slot} {e : Event}

/-- A reader is there from when it is made to when it is closed. -/
theorem Turn.has_add (h : Turn n k σ e σ') (r : Nat) :
    (if e.makes r then 1 else 0) + σ.has r = (if e.closes r then 1 else 0) + σ'.has r := by
  cases h <;> simp [Event.makes, Event.closes, has]

/-- A packet is there from when it is handed out to when it is given back. -/
theorem Turn.holds_add (h : Turn n k σ e σ') (m : Nat) :
    (if e.hands m then 1 else 0) + σ.holds m = (if e.returns m then 1 else 0) + σ'.holds m := by
  cases h <;> simp [Event.hands, Event.returns, holds]

/-- A reader that comes to be has the next number. -/
theorem Turn.eq_of_makes (h : Turn n k σ e σ') {r : Nat} (hr : e.makes r = true) :
    r = n ∧ e.newReaders = 1 := by
  cases h <;> simp [Event.makes] at hr
  exact ⟨hr.symm, rfl⟩

/-- A packet that is handed out has the next number. -/
theorem Turn.eq_of_hands (h : Turn n k σ e σ') {m : Nat} (hm : e.hands m = true) :
    m = k ∧ e.newPackets = 1 := by
  cases h <;> simp [Event.hands] at hm
  exact ⟨hm.symm, rfl⟩

/-- A packet comes from the reader of the session, and is then held by it. -/
theorem Turn.of_packet {r m size : Nat} (h : Turn n k σ (.packet r m size) σ') :
    σ = reading r ∧ σ' = holding r m := by
  cases h
  exact ⟨rfl, rfl⟩

/-- A reader that comes to be is in the session that made it. -/
theorem Turn.has_of_created {r : Nat} {o l : UInt64} (h : Turn n k σ (.created r o l true) σ') :
    σ'.has r = 1 := by
  cases h
  simp [has]

/-- A session that holds a packet can do nothing but give it back. -/
theorem Turn.of_holding {r m : Nat} (h : Turn n k (holding r m) e σ') :
    (∃ size unread, e = .released m size unread) ∧ σ' = reading r := by
  cases h
  exact ⟨⟨_, _, rfl⟩, rfl⟩

theorem Turn.not_shuts (h : Turn n k σ e σ') : e.shuts = false := by
  cases h <;> rfl

/-- A session has one reader at most. -/
theorem eq_of_has {r r' : Nat} (h : σ.has r ≠ 0) (h' : σ.has r' ≠ 0) : r = r' := by
  cases σ with
  | idle => exact absurd rfl h
  | reading q | holding q m =>
    have hr : q = r := Decidable.byContradiction fun hne => h (if_neg hne)
    have hr' : q = r' := Decidable.byContradiction fun hne => h' (if_neg hne)
    rw [← hr, hr']

end Slot

/-! ## Two sessions side by side -/

/-- An event, and whether it belongs to a read at a position. -/
structure Entry where
  visiting : Bool
  event : Event
  deriving DecidableEq, Repr

/-- The sessions of a stream, and the numbers that come next. -/
structure Desk where
  readers : Nat := 0
  packets : Nat := 0
  /-- The session of the reads in sequence. -/
  session : Slot := .idle
  /-- The session of a read at a position. -/
  visit : Slot := .idle
  /-- Whether the source is closed. -/
  shut : Bool := false
  deriving DecidableEq, Repr

namespace Desk

/-- The session of a kind. -/
def slot (d : Desk) (v : Bool) : Slot := if v then d.visit else d.session

/-- The desk with one of its sessions at another place. -/
def put (d : Desk) (v : Bool) (σ : Slot) : Desk :=
  if v then { d with visit := σ } else { d with session := σ }

/-- The desk with the numbers of an event used up. -/
def count (d : Desk) (e : Event) : Desk :=
  { d with readers := d.readers + e.newReaders, packets := d.packets + e.newPackets }

/-- The number of sessions that hold packet `m`. -/
def holds (d : Desk) (m : Nat) : Nat := d.session.holds m + d.visit.holds m

/-- What happens at a desk: one of the sessions goes on, or the source is closed. -/
inductive Turn : Desk → Entry → Desk → Prop
  | slot {d : Desk} {v : Bool} {e : Event} {σ : Slot} (hopen : d.shut = false)
    (h : (d.slot v).Turn d.readers d.packets e σ) : Turn d ⟨v, e⟩ ((d.count e).put v σ)
  | shut {d : Desk} {cleanly : Bool} (hopen : d.shut = false) (hs : d.session = .idle)
    (hv : d.visit = .idle) : Turn d ⟨false, .sourceClosed cleanly⟩ { d with shut := true }

/-- A run of a desk over a list of events. -/
inductive Turns : Desk → List Entry → Desk → Prop
  | nil (d : Desk) : Turns d [] d
  | cons {d d' d'' : Desk} {e : Entry} {t : List Entry} (h : Turn d e d') (ht : Turns d' t d'') :
    Turns d (e :: t) d''

theorem Turns.append {d d' d'' : Desk} {t t' : List Entry} (h : Turns d t d')
    (h' : Turns d' t' d'') : Turns d (t ++ t') d'' := by
  induction h with
  | nil => exact h'
  | cons h _ ih => exact .cons h (ih h')

theorem Turns.snoc {d d' d'' : Desk} {t : List Entry} {e : Entry} (h : Turns d t d')
    (he : Turn d' e d'') : Turns d (t ++ [e]) d'' :=
  h.append (.cons he (.nil _))

theorem Turns.split {d d'' : Desk} {t t' : List Entry} (h : Turns d (t ++ t') d'') :
    ∃ d', Turns d t d' ∧ Turns d' t' d'' := by
  induction t generalizing d with
  | nil => exact ⟨d, .nil d, h⟩
  | cons e t ih =>
    cases h with
    | cons he ht =>
      obtain ⟨d', h₁, h₂⟩ := ih ht
      exact ⟨d', .cons he h₁, h₂⟩

variable {d d' : Desk} {e : Entry} {t : List Entry}

@[simp] theorem slot_put_self (d : Desk) (v : Bool) (σ : Slot) : (d.put v σ).slot v = σ := by
  cases v <;> rfl

@[simp] theorem slot_put_not (d : Desk) (v : Bool) (σ : Slot) :
    (d.put v σ).slot (!v) = d.slot !v := by
  cases v <;> rfl

@[simp] theorem slot_count (d : Desk) (e : Event) (v : Bool) : (d.count e).slot v = d.slot v := rfl

@[simp] theorem readers_put (d : Desk) (v : Bool) (σ : Slot) : (d.put v σ).readers = d.readers := by
  cases v <;> rfl

@[simp] theorem packets_put (d : Desk) (v : Bool) (σ : Slot) : (d.put v σ).packets = d.packets := by
  cases v <;> rfl

@[simp] theorem shut_put (d : Desk) (v : Bool) (σ : Slot) : (d.put v σ).shut = d.shut := by
  cases v <;> rfl

/-- A desk goes on in one session at a time. -/
theorem Turn.slot_cases (h : Turn d e d') (v : Bool) :
    d'.slot v = d.slot v ∨ (d.slot v).Turn d.readers d.packets e.event (d'.slot v) := by
  cases h with
  | @slot u ev σ _ h =>
    by_cases huv : v = u
    · subst huv
      exact .inr (by simpa using h)
    · have hv : v = !u := by cases v <;> cases u <;> simp_all
      subst hv
      exact .inl (by rw [slot_put_not, slot_count])
  | shut => exact .inl rfl

/-- A reader that comes to be is in the session that made it. -/
theorem Turn.has_of_created (h : Turn d e d') {r : Nat} {o n : UInt64}
    (he : e.event = .created r o n true) : ∃ v, (d'.slot v).has r = 1 := by
  cases h with
  | @slot v ev σ _ h =>
    dsimp only at he
    subst he
    exact ⟨v, by rw [slot_put_self]; exact h.has_of_created⟩
  | shut => simp at he

/-- A packet that is handed out is in the session that asked for it. -/
theorem Turn.holding_of_packet (h : Turn d e d') {r m size : Nat}
    (he : e.event = .packet r m size) : ∃ v, d'.slot v = .holding r m := by
  cases h with
  | @slot v ev σ _ h =>
    dsimp only at he
    subst he
    exact ⟨v, by rw [slot_put_self]; exact h.of_packet.2⟩
  | shut => simp at he

/-- A desk whose sessions are over. -/
def Idle (d : Desk) : Prop := ∀ v, d.slot v = .idle

/-! ### Balances

The sessions that are counted are given by a predicate on their kind, so that one statement covers
both of them together and each of them alone. -/

/-- The number of sessions among those of a kind that have reader `r`. -/
def hasIn (V : Bool → Bool) (d : Desk) (r : Nat) : Nat :=
  (if V false then d.session.has r else 0) + if V true then d.visit.has r else 0

theorem Idle.hasIn_eq_zero (h : d.Idle) (V : Bool → Bool) (r : Nat) : d.hasIn V r = 0 := by
  have hsession : d.session = .idle := h false
  have hvisit : d.visit = .idle := h true
  simp [hasIn, hsession, hvisit, Slot.has]

theorem Idle.holds_eq_zero (h : d.Idle) (m : Nat) : d.holds m = 0 := by
  have hsession : d.session = .idle := h false
  have hvisit : d.visit = .idle := h true
  simp [holds, hsession, hvisit, Slot.holds]

theorem Turn.has_add (V : Bool → Bool) (h : Turn d e d') (r : Nat) :
    (if V e.visiting && e.event.makes r then 1 else 0) + d.hasIn V r =
      (if V e.visiting && e.event.closes r then 1 else 0) + d'.hasIn V r := by
  cases h with
  | @slot v ev σ _ h =>
    have := h.has_add r
    cases v
    all_goals
      simp only [Desk.slot, Bool.false_eq_true, if_false, if_true] at this
      simp only [hasIn, put, Desk.count, Bool.false_eq_true, if_false, if_true]
      cases V false <;> cases V true <;> simp <;> omega
  | shut => simp [Event.makes, Event.closes, hasIn]

/-- Whoever is made and not closed is there, and the other way round. -/
theorem Turns.has_add (V : Bool → Bool) (h : Turns d t d') (r : Nat) :
    t.countP (fun e => V e.visiting && e.event.makes r) + d.hasIn V r =
      t.countP (fun e => V e.visiting && e.event.closes r) + d'.hasIn V r := by
  induction h with
  | nil => rfl
  | cons he _ ih =>
    have := he.has_add V r
    simp only [List.countP_cons]
    omega

theorem Turn.holds_add (h : Turn d e d') (m : Nat) :
    (if e.event.hands m then 1 else 0) + d.holds m =
      (if e.event.returns m then 1 else 0) + d'.holds m := by
  cases h with
  | @slot v ev σ _ h =>
    have := h.holds_add m
    cases v
    all_goals
      simp only [Desk.slot, Bool.false_eq_true, if_false, if_true] at this
      simp only [holds, put, Desk.count, Bool.false_eq_true, if_false, if_true]
      omega
  | shut => simp [Event.hands, Event.returns, holds]

/-- What is handed out and not given back is held, and the other way round. -/
theorem Turns.holds_add (h : Turns d t d') (m : Nat) :
    t.countP (fun e => e.event.hands m) + d.holds m =
      t.countP (fun e => e.event.returns m) + d'.holds m := by
  induction h with
  | nil => rfl
  | cons he _ ih =>
    have := he.holds_add m
    simp only [List.countP_cons]
    omega

/-! ### Numbers are used once -/

theorem Turn.readers_eq (h : Turn d e d') : d'.readers = d.readers + e.event.newReaders := by
  cases h with
  | slot => simp [Desk.count]
  | shut => rfl

theorem Turn.packets_eq (h : Turn d e d') : d'.packets = d.packets + e.event.newPackets := by
  cases h with
  | slot => simp [Desk.count]
  | shut => rfl

theorem Turn.eq_of_makes (h : Turn d e d') {r : Nat} (hr : e.event.makes r = true) :
    r = d.readers ∧ d'.readers = d.readers + 1 := by
  have hreaders := h.readers_eq
  cases h with
  | slot _ h =>
    obtain ⟨h₁, h₂⟩ := h.eq_of_makes hr
    exact ⟨h₁, by rw [hreaders]; exact congrArg _ h₂⟩
  | shut => simp [Event.makes] at hr

theorem Turn.eq_of_hands (h : Turn d e d') {m : Nat} (hm : e.event.hands m = true) :
    m = d.packets ∧ d'.packets = d.packets + 1 := by
  have hpackets := h.packets_eq
  cases h with
  | slot _ h =>
    obtain ⟨h₁, h₂⟩ := h.eq_of_hands hm
    exact ⟨h₁, by rw [hpackets]; exact congrArg _ h₂⟩
  | shut => simp [Event.hands] at hm

/-- No reader is made twice, and the numbers of those that are made lie between the counters. -/
theorem Turns.makes_le (h : Turns d t d') (r : Nat) :
    t.countP (fun e => e.event.makes r) ≤ (if d.readers ≤ r ∧ r < d'.readers then 1 else 0) ∧
      d.readers ≤ d'.readers := by
  induction h with
  | nil => simp
  | @cons d d₁ d₂ e t he _ ih =>
    have hreaders := he.readers_eq
    rw [List.countP_cons]
    by_cases hr : e.event.makes r = true
    · obtain ⟨rfl, hnew⟩ := he.eq_of_makes hr
      rw [if_pos hr]
      split at ih <;> split <;> omega
    · rw [if_neg hr]
      split at ih <;> split <;> omega

/-- No packet is handed out twice. -/
theorem Turns.hands_le (h : Turns d t d') (m : Nat) :
    t.countP (fun e => e.event.hands m) ≤ (if d.packets ≤ m ∧ m < d'.packets then 1 else 0) ∧
      d.packets ≤ d'.packets := by
  induction h with
  | nil => simp
  | @cons d d₁ d₂ e t he _ ih =>
    have hpackets := he.packets_eq
    rw [List.countP_cons]
    by_cases hm : e.event.hands m = true
    · obtain ⟨rfl, hnew⟩ := he.eq_of_hands hm
      rw [if_pos hm]
      split at ih <;> split <;> omega
    · rw [if_neg hm]
      split at ih <;> split <;> omega

/-! ### Nothing is left behind -/

theorem Turn.shuts_add (h : Turn d e d') :
    (if e.event.shuts then 1 else 0) + (if d.shut then 1 else 0) = if d'.shut then 1 else 0 := by
  cases h with
  | slot hopen h => simp [h.not_shuts, Desk.count, hopen]
  | shut hopen => simp [Event.shuts, hopen]

/-- The source is closed once, if it is. -/
theorem Turns.shuts_add (h : Turns d t d') :
    t.countP (fun e => e.event.shuts) + (if d.shut then 1 else 0) = if d'.shut then 1 else 0 := by
  induction h with
  | nil => simp
  | cons he _ ih =>
    have := he.shuts_add
    simp only [List.countP_cons]
    omega

/-- A session that has a reader and ends up idle closes it on the way. -/
theorem Turns.closed_of_has (h : Turns d t d') {v : Bool} {r : Nat} (hr : (d.slot v).has r ≠ 0)
    (hidle : d'.slot v = .idle) : ∃ c, [Event.readerClosed r c].Sublist (t.map Entry.event) := by
  induction h with
  | nil d =>
    rw [hidle] at hr
    exact absurd rfl hr
  | @cons d d₁ d₂ e t he _ ih =>
    rw [List.map_cons]
    by_cases hr₁ : (d₁.slot v).has r ≠ 0
    · obtain ⟨c, hc⟩ := ih hr₁ hidle
      exact ⟨c, hc.cons _⟩
    rcases he.slot_cases v with heq | hturn
    · rw [heq] at hr₁
      exact absurd hr hr₁
    have hadd := hturn.has_add r
    have hcloses : e.event.closes r = true := by
      by_cases hcloses : e.event.closes r = true
      · exact hcloses
      · rw [if_neg hcloses] at hadd
        omega
    obtain ⟨c, hc⟩ := Event.closes_iff.1 hcloses
    rw [hc]
    exact ⟨c, (List.nil_sublist _).cons_cons _⟩

/-- A session that holds a packet and ends up idle gives it back first and closes its reader
then. -/
theorem Turns.returned_of_holding (h : Turns d t d') {v : Bool} {r m : Nat}
    (hm : d.slot v = .holding r m) (hidle : d'.slot v = .idle) :
    ∃ size unread c,
      [Event.released m size unread, .readerClosed r c].Sublist (t.map Entry.event) := by
  induction h with
  | nil d => simp [hm] at hidle
  | @cons d d₁ d₂ e t he ht ih =>
    rw [List.map_cons]
    rcases he.slot_cases v with heq | hturn
    · obtain ⟨size, unread, c, hc⟩ := ih (heq.trans hm) hidle
      exact ⟨size, unread, c, hc.cons _⟩
    · rw [hm] at hturn
      obtain ⟨⟨size, unread, hev⟩, hreading⟩ := hturn.of_holding
      obtain ⟨c, hc⟩ := ht.closed_of_has (v := v) (r := r) (by simp [hreading, Slot.has]) hidle
      rw [hev]
      exact ⟨size, unread, c, hc.cons_cons _⟩

/-- In a run that ends with the sessions over, a reader that comes to be is closed later on. -/
theorem Turns.closed_of_created (h : Turns d t d') (hidle : d'.Idle) {r : Nat} {o n : UInt64}
    (hr : .created r o n true ∈ t.map Entry.event) :
    ∃ c, [Event.created r o n true, .readerClosed r c].Sublist (t.map Entry.event) := by
  induction h with
  | nil d => simp at hr
  | @cons d d₁ d₂ e t he ht ih =>
    rw [List.map_cons, List.mem_cons] at hr
    rw [List.map_cons]
    rcases hr with hev | hr
    · obtain ⟨v, hslot⟩ := he.has_of_created hev.symm
      obtain ⟨c, hc⟩ := ht.closed_of_has (by rw [hslot]; exact Nat.one_ne_zero) (hidle v)
      rw [← hev]
      exact ⟨c, hc.cons_cons _⟩
    · obtain ⟨c, hc⟩ := ih hidle hr
      exact ⟨c, hc.cons _⟩

/-- In a run that ends with the sessions over, a packet that is handed out is given back later on,
and the reader that it came from is closed after that. -/
theorem Turns.returned_of_packet (h : Turns d t d') (hidle : d'.Idle) {r m size : Nat}
    (hm : .packet r m size ∈ t.map Entry.event) :
    ∃ size' unread c,
      [Event.packet r m size, .released m size' unread, .readerClosed r c].Sublist
        (t.map Entry.event) := by
  induction h with
  | nil d => simp at hm
  | @cons d d₁ d₂ e t he ht ih =>
    rw [List.map_cons, List.mem_cons] at hm
    rw [List.map_cons]
    rcases hm with hev | hm
    · obtain ⟨v, hslot⟩ := he.holding_of_packet hev.symm
      obtain ⟨size', unread, c, hc⟩ := ht.returned_of_holding hslot (hidle v)
      rw [← hev]
      exact ⟨size', unread, c, hc.cons_cons _⟩
    · obtain ⟨size', unread, c, hc⟩ := ih hidle hm
      exact ⟨size', unread, c, hc.cons _⟩

end Desk
end BlockAccess
