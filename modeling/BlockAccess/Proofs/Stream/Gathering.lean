import BlockAccess.Proofs.Stream.Blame

/-!
# How a read at a position gathers packets

A read at a position takes the packets that its reader hands out one after the other and gives each
of them back before it asks for the next one (`Source.Hands`).  It goes on as long as bytes are
wanted and no reader was given up for its empty packets, and then it ends in one of five ways
(`Source.Stops`).  `gathered` says so of `Source.gather`, for every source.

What a reader hands out is determined, so a reader that would hand out certain packets up to its end
hands out the same ones to a read, as far as that goes on (`Source.Hands.compare`).  If these are
the bytes of the range that was asked for, cut in any way, then the read obtains all of them
(`Source.Delivers.gathered`).

If it fails, the reason is seen last (`blames_gather`).

`Stream.Course` puts this together with making and closing the reader.
-/

namespace BlockAccess

variable {W R : Type}

/-! ## Packets one after another -/

namespace Packet

/-- The bytes in some packets. -/
def unreadIn (ps : List Packet) : Bytes := ps.flatMap Packet.unread

/-- The number of empty packets in a row at the end of some packets, if `n` came before them. -/
def emptiesAfter (n : Nat) : List Packet → Nat
  | [] => n
  | p :: ps => emptiesAfter (if p.readable = 0 then n + 1 else 0) ps

@[simp] theorem unreadIn_nil : unreadIn [] = [] := rfl

@[simp] theorem unreadIn_cons (p : Packet) (ps : List Packet) :
    unreadIn (p :: ps) = p.unread ++ unreadIn ps := rfl

theorem unreadIn_append (ps qs : List Packet) :
    unreadIn (ps ++ qs) = unreadIn ps ++ unreadIn qs := List.flatMap_append

end Packet

open Packet (unreadIn emptiesAfter)

namespace Source

section

variable [Journaled W] (src : Source W R) (block : UInt64)

/-- Gives a packet back that was handed out: an empty one with a notice, and any other one with none
of its bytes left. -/
def giveBack (p : Packet) (r : R) (w : W) : W :=
  if p.readable = 0 then src.release p (note (.emptyPacket (src.position r) block) w)
  else src.release p.released w

/-- A reader hands out some packets, and each of them is given back before the next one. -/
inductive Hands : R → W → List Packet → R → W → Prop
  | nil (r : R) (w : W) : Hands r w [] r w
  | cons {r r₁ r' : R} {w w₁ w' : W} {p : Packet} {ps : List Packet}
    (h : src.next r w = (.ok (some p), r₁, w₁))
    (hrest : Hands r₁ (src.giveBack block p r₁ w₁) ps r' w') : Hands r w (p :: ps) r' w'

/-- Packets that a reader hands out to a client who wants some bytes and met `n` empty packets in a
row before them.  Up to the last one, bytes were wanted and more empty packets were put up with. -/
structure Gathers (wanted n : Nat) (r : R) (w : W) (ps : List Packet) (r' : R) (w' : W) : Prop where
  hands : src.Hands block r w ps r' w'
  length_le : (unreadIn ps).length ≤ wanted
  hungry : ∀ qs, qs <+: ps → qs ≠ ps →
    (unreadIn qs).length < wanted ∧ emptiesAfter n qs < emptyPacketLimit

/-- How gathering ends where `left` bytes are still wanted and the last `n` packets were empty. -/
inductive Stops (left n : Nat) (r : R) (w : W) : Except Failure Unit → R → W → Prop
  /-- All bytes are together, so the reader is not asked for another packet. -/
  | full (h : left = 0) : Stops left n r w (.ok ()) r w
  /-- Too many packets in a row were empty. -/
  | tired (hleft : 0 < left) (h : n = emptyPacketLimit) :
    Stops left n r w (.error (.transport (.emptyPackets block))) r w
  /-- The reader is at its end. -/
  | exhausted {r' : R} {w' : W} (hleft : 0 < left) (hn : n < emptyPacketLimit)
    (h : src.next r w = (.ok none, r', w')) : Stops left n r w (.ok ()) r' w'
  /-- The reader fails. -/
  | failed {f : Failure} {r' : R} {w' : W} (hleft : 0 < left) (hn : n < emptyPacketLimit)
    (h : src.next r w = (.error f, r', w')) : Stops left n r w (.error f) r' w'
  /-- The next packet has more bytes than are wanted, and is given back. -/
  | overrun {p : Packet} {r' : R} {w' : W} (hleft : 0 < left) (hn : n < emptyPacketLimit)
    (h : src.next r w = (.ok (some p), r', w')) (hlarge : left < p.readable) :
    Stops left n r w (.error (.transport (.overrun p.readable left))) r' (src.release p w')

end

variable [Journaled W] {src : Source W R} {block : UInt64}

/-! ### One packet more -/

theorem Gathers.nil {wanted n : Nat} (r : R) (w : W) :
    src.Gathers block wanted n r w [] r w where
  hands := .nil r w
  length_le := Nat.zero_le _
  hungry _ hqs hne := absurd (List.prefix_nil.1 hqs) hne

/-- A packet in front of others. -/
theorem Gathers.cons {wanted left n m : Nat} {p : Packet} {ps : List Packet} {r r₁ r' : R}
    {w w₁ w' : W} (hwanted : 0 < wanted) (hn : n < emptyPacketLimit)
    (hnext : src.next r w = (.ok (some p), r₁, w₁)) (hleft : left + p.readable = wanted)
    (hm : m = if p.readable = 0 then n + 1 else 0)
    (h : src.Gathers block left m r₁ (src.giveBack block p r₁ w₁) ps r' w') :
    src.Gathers block wanted n r w (p :: ps) r' w' where
  hands := .cons hnext h.hands
  length_le := by
    have hle := h.length_le
    rw [Packet.readable] at hleft
    rw [Packet.unreadIn_cons, List.length_append]
    omega
  hungry qs hqs hne := by
    cases qs with
    | nil => exact ⟨hwanted, hn⟩
    | cons q qs =>
      obtain ⟨rfl, htail⟩ := List.cons_prefix_cons.1 hqs
      have hne' : qs ≠ ps := fun heq => hne (by rw [heq])
      obtain ⟨hless, hempties⟩ := h.hungry qs htail hne'
      rw [Packet.readable] at hleft
      rw [Packet.unreadIn_cons, List.length_append, emptiesAfter, ← hm]
      exact ⟨by omega, hempties⟩

/-! ### Gathering -/

/-- Gathering goes on taking packets, whatever was gathered before. -/
theorem gathers {wanted budget n : Nat} {got got' : List Bytes} {r r' : R} {w w' : W}
    {x : Except Failure Unit} (hwanted : wanted < UInt64.size)
    (hbudget : budget + n = emptyPacketLimit)
    (h : src.gather block wanted budget got r w = (x, got', r', w')) : ∃ ps r₁ w₁,
      src.Gathers block wanted n r w ps r₁ w₁ ∧
      got'.reverse.flatten = got.reverse.flatten ++ unreadIn ps ∧
      src.Stops block (wanted - (unreadIn ps).length) (emptiesAfter n ps) r₁ w₁ x r' w' := by
  fun_induction Source.gather src block wanted budget got r w generalizing n with
  | case1 budget got r w =>
    simp only [Prod.mk.injEq] at h
    obtain ⟨rfl, rfl, rfl, rfl⟩ := h
    exact ⟨[], r, w, .nil r w, (List.append_nil _).symm, .full rfl⟩
  | case2 wanted got r w hne =>
    simp only [Prod.mk.injEq] at h
    obtain ⟨rfl, rfl, rfl, rfl⟩ := h
    exact ⟨[], r, w, .nil r w, (List.append_nil _).symm,
      .tired (Nat.pos_of_ne_zero hne) (by show n = _; omega)⟩
  | case3 wanted got r w hne budget f r₁ w₁ hnext =>
    simp only [Prod.mk.injEq] at h
    obtain ⟨rfl, rfl, rfl, rfl⟩ := h
    exact ⟨[], r, w, .nil r w, (List.append_nil _).symm,
      .failed (Nat.pos_of_ne_zero hne) (by show n < _; omega) hnext⟩
  | case4 wanted got r w hne budget r₁ w₁ hnext =>
    simp only [Prod.mk.injEq] at h
    obtain ⟨rfl, rfl, rfl, rfl⟩ := h
    exact ⟨[], r, w, .nil r w, (List.append_nil _).symm,
      .exhausted (Nat.pos_of_ne_zero hne) (by show n < _; omega) hnext⟩
  | case5 wanted got r w hne budget p r₁ w₁ hnext hempty ih =>
    obtain ⟨ps, r₂, w₂, hgathers, hbytes, hstops⟩ := ih hwanted (n := n + 1) (by omega) h
    have hback : src.giveBack block p r₁ w₁ =
        src.release p (note (.emptyPacket (src.position r₁) block) w₁) := if_pos hempty
    have hnil : p.unread = [] := List.length_eq_zero_iff.1 hempty
    refine ⟨p :: ps, r₂, w₂, ?_, ?_, ?_⟩
    · rw [← hback] at hgathers
      exact .cons (Nat.pos_of_ne_zero hne) (by omega) hnext (by omega) (if_pos hempty).symm hgathers
    · rw [hbytes, Packet.unreadIn_cons, hnil, List.nil_append]
    · rw [Packet.unreadIn_cons, hnil, List.nil_append, emptiesAfter, if_pos hempty]
      exact hstops
  | case6 wanted got r w hne budget p r₁ w₁ hnext _ hlarge =>
    simp only [Prod.mk.injEq] at h
    obtain ⟨rfl, rfl, rfl, rfl⟩ := h
    exact ⟨[], r, w, .nil r w, (List.append_nil _).symm,
      .overrun (Nat.pos_of_ne_zero hne) (by show n < _; omega) hnext hlarge⟩
  | case7 wanted got r w _ budget p r₁ w₁ _ _ hsmall f q htake =>
    rw [p.take_readable (by omega)] at htake
    simp at htake
  | case8 wanted got r w hne budget p r₁ w₁ hnext hempty hsmall b taken htake ih =>
    rw [p.take_readable (by omega)] at htake
    simp only [Prod.mk.injEq, Except.ok.injEq] at htake
    obtain ⟨rfl, rfl⟩ := htake
    obtain ⟨ps, r₂, w₂, hgathers, hbytes, hstops⟩ := ih (by omega) (n := 0) rfl h
    have hback : src.giveBack block p r₁ w₁ = src.release { p with unread := [] } w₁ :=
      if_neg hempty
    have hleft : wanted - p.readable + p.readable = wanted := by omega
    refine ⟨p :: ps, r₂, w₂, ?_, ?_, ?_⟩
    · rw [← hback] at hgathers
      exact .cons (Nat.pos_of_ne_zero hne) (by omega) hnext hleft (if_neg hempty).symm hgathers
    · rw [hbytes, List.reverse_cons, List.flatten_append, List.flatten_singleton,
        List.append_assoc, Packet.unreadIn_cons]
    · rw [Packet.unreadIn_cons, List.length_append, emptiesAfter, if_neg hempty, ← Nat.sub_sub]
      exact hstops

/-- **Gathering takes packets as a reader hands them out, and stops in one of five ways.** -/
theorem gathered {wanted : Nat} {got : List Bytes} {r r' : R} {w w' : W} {x : Except Failure Unit}
    (hwanted : wanted < UInt64.size)
    (h : src.gather block wanted emptyPacketLimit [] r w = (x, got, r', w')) : ∃ ps r₁ w₁,
      src.Gathers block wanted 0 r w ps r₁ w₁ ∧ got.reverse.flatten = unreadIn ps ∧
      src.Stops block (wanted - (unreadIn ps).length) (emptiesAfter 0 ps) r₁ w₁ x r' w' :=
  gathers hwanted (Nat.add_zero _) h

/-! ### What a reader hands out is determined -/

/-- Of two series of packets that a reader hands out, one goes on where the other ends. -/
theorem Hands.compare {ps qs : List Packet} {r r₁ r₂ : R} {w w₁ w₂ : W}
    (h : src.Hands block r w ps r₁ w₁) (h' : src.Hands block r w qs r₂ w₂) :
    (∃ rest, qs = ps ++ rest ∧ src.Hands block r₁ w₁ rest r₂ w₂) ∨
      ∃ p rest, ps = qs ++ p :: rest ∧ src.Hands block r₂ w₂ (p :: rest) r₁ w₁ := by
  induction h generalizing qs with
  | nil r w => exact .inl ⟨qs, rfl, h'⟩
  | cons hnext hrest ih =>
    cases h' with
    | nil => exact .inr ⟨_, _, rfl, .cons hnext hrest⟩
    | cons hnext' hrest' =>
      rw [hnext] at hnext'
      simp only [Prod.mk.injEq, Except.ok.injEq, Option.some.injEq] at hnext'
      obtain ⟨rfl, rfl, rfl⟩ := hnext'
      rcases ih hrest' with ⟨rest, rfl, hgo⟩ | ⟨q, rest, rfl, hgo⟩
      · exact .inl ⟨rest, rfl, hgo⟩
      · exact .inr ⟨q, rest, rfl, hgo⟩

/-- A reader that hands out some bytes, cut in any way but never with too many empty packets in a
row, and is at its end then. -/
def Delivers (src : Source W R) (block : UInt64) (r : R) (w : W) (b : Bytes) : Prop :=
  ∃ ps r₁ w₁ r₂ w₂, src.Hands block r w ps r₁ w₁ ∧ src.next r₁ w₁ = (.ok none, r₂, w₂) ∧
    unreadIn ps = b ∧ ∀ qs, qs <+: ps → emptiesAfter 0 qs < emptyPacketLimit

/-- **All that is delivered is gathered**, if it is no more than what is wanted. -/
theorem Delivers.gathered {wanted : Nat} {ps : List Packet} {r r₁ r' : R} {w w₁ w' : W} {b : Bytes}
    {x : Except Failure Unit} (h : src.Delivers block r w b) (hb : b.length ≤ wanted)
    (hgathers : src.Gathers block wanted 0 r w ps r₁ w₁)
    (hstops : src.Stops block (wanted - (unreadIn ps).length) (emptiesAfter 0 ps) r₁ w₁ x r' w') :
    x = .ok () ∧ unreadIn ps = b := by
  obtain ⟨qs, r₂, w₂, r₃, w₃, hhands, hend, rfl, hempties⟩ := h
  rcases hgathers.hands.compare hhands with ⟨rest, rfl, hgo⟩ | ⟨p, rest, rfl, hgo⟩
  · have hpatient := hempties ps (List.prefix_append ..)
    rw [Packet.unreadIn_append, List.length_append] at hb
    cases hgo with
    | nil =>
      -- the read took everything
      rw [List.append_nil]
      cases hstops with
      | full | exhausted => exact ⟨rfl, rfl⟩
      | tired _ h => exact absurd h (Nat.ne_of_lt hpatient)
      | failed _ _ h => simp [hend] at h
      | overrun _ _ h => simp [hend] at h
    | @cons _ _ _ _ _ _ p rest hnext _ =>
      -- there are more packets, so it stopped because all bytes were together
      cases hstops with
      | full h =>
        have hnone : unreadIn (p :: rest) = [] := List.length_eq_zero_iff.1 (by omega)
        rw [Packet.unreadIn_append, hnone, List.append_nil]
        exact ⟨rfl, rfl⟩
      | tired _ h => exact absurd h (Nat.ne_of_lt hpatient)
      | exhausted _ _ h => simp [hnext] at h
      | failed _ _ h => simp [hnext] at h
      | overrun _ _ h hlarge =>
        rw [hnext] at h
        simp only [Prod.mk.injEq, Except.ok.injEq, Option.some.injEq] at h
        obtain ⟨rfl, -, -⟩ := h
        rw [Packet.unreadIn_cons, List.length_append] at hb
        rw [Packet.readable] at hlarge
        omega
  · -- a reader at its end hands out nothing
    cases hgo with
    | cons hnext _ => simp [hend] at hnext

/-! ### What is seen of it -/

/-- What is seen of packets that are handed out and given back. -/
def turnsOf (k : Nat) (ps : List Packet) : List Event :=
  ps.flatMap fun p => [.packet k p.serial p.readable, .released p.serial p.size 0]

/-- What is seen of stopping where `left` bytes are still wanted. -/
inductive StopSeen (block : UInt64) (k left : Nat) : Except Failure Unit → List Event → Prop
  | full (h : left = 0) : StopSeen block k left (.ok ()) []
  | tired (hleft : 0 < left) :
    StopSeen block k left (.error (.transport (.emptyPackets block))) []
  | exhausted (hleft : 0 < left) : StopSeen block k left (.ok ()) [.exhausted k]
  | failed (hleft : 0 < left) (f : Failure) : StopSeen block k left (.error f) [.packetFailed k]
  | overrun (hleft : 0 < left) (serial size : Nat) {unread : Nat} (h : left < unread) :
    StopSeen block k left (.error (.transport (.overrun unread left)))
      [.packet k serial unread, .released serial size unread]

variable {o o' : Observed W} {r r' : Numbered R}

theorem saw_giveBack (src : Source W R) (block : UInt64) (p : Packet) (r : Numbered R)
    (o : Observed W) :
    o.Saw [.released p.serial p.size 0] (src.observed.giveBack block p r o) := by
  unfold giveBack
  split
  · next hempty =>
    have hreleased := src.saw_release p (note (.emptyPacket (src.observed.position r) block) o)
    rw [hempty] at hreleased
    exact (Observed.saw_note o _).append hreleased
  · exact src.saw_release p.released o

/-- Each packet is given back right after it was handed out. -/
theorem Hands.saw {ps : List Packet} (h : src.observed.Hands block r o ps r' o') :
    r'.number = r.number ∧ o.Saw (turnsOf r.number ps) o' := by
  induction h with
  | nil r o => exact ⟨rfl, .nothing o⟩
  | @cons r r₁ _ o o₁ _ p ps hnext hrest ih =>
    obtain ⟨hnumber, hhanded⟩ := saw_handed hnext
    obtain ⟨hsame, hsaw⟩ := ih
    rw [hnumber] at hsame hsaw
    exact ⟨hsame, (hhanded.append (saw_giveBack src block p r₁ o₁)).append hsaw⟩

omit [Journaled W] in
theorem Stops.saw {left n : Nat} {x : Except Failure Unit}
    (h : src.observed.Stops block left n r o x r' o') :
    r'.number = r.number ∧ ∃ es, o.Saw es o' ∧ StopSeen block r.number left x es := by
  cases h with
  | full h => exact ⟨rfl, [], .nothing o, .full h⟩
  | tired hleft _ => exact ⟨rfl, [], .nothing o, .tired hleft⟩
  | exhausted hleft _ h =>
    obtain ⟨hnumber, hsaw⟩ := saw_exhausted h
    exact ⟨hnumber, _, hsaw, .exhausted hleft⟩
  | failed hleft _ h =>
    obtain ⟨hnumber, hsaw, -⟩ := saw_failed block h
    exact ⟨hnumber, _, hsaw, .failed hleft _⟩
  | overrun hleft _ h hlarge =>
    obtain ⟨hnumber, hsaw⟩ := saw_handed h
    exact ⟨hnumber, _, hsaw.append (src.saw_release _ _), .overrun hleft _ _ hlarge⟩

theorem turnsOf_concat (k : Nat) (ps : List Packet) (p : Packet) :
    turnsOf k (ps ++ [p]) =
      turnsOf k ps ++ [.packet k p.serial p.readable] ++ [.released p.serial p.size 0] := by
  rw [turnsOf, List.flatMap_append, List.flatMap_singleton, turnsOf, List.append_assoc]
  rfl

/-- What is to blame for a failure to gather is seen last. -/
theorem blames_gather {wanted : Nat} {got : List Bytes} {f : Failure} (hwanted : wanted < UInt64.size)
    (h : src.observed.gather block wanted emptyPacketLimit [] r o = (.error f, got, r', o')) :
    o.SawLast (src.Blames block f) o' := by
  obtain ⟨ps, r₁, o₁, hgathers, -, hstops⟩ := gathered hwanted h
  have hturns := hgathers.hands.saw.2
  cases hstops with
  | tired _ htired =>
    -- there was a packet, and the last one was given back
    rcases List.eq_nil_or_concat ps with rfl | ⟨qs, p, rfl⟩
    · simp [emptiesAfter, emptyPacketLimit] at htired
    · rw [List.concat_eq_append, turnsOf_concat] at hturns
      exact ⟨_, _, hturns, .empties _ _⟩
  | failed _ _ hnext =>
    obtain ⟨-, hsaw, hblames⟩ := saw_failed block hnext
    exact hturns.sawLast (hsaw.last hblames)
  | @overrun p _ o₂ _ _ hnext hlarge =>
    have hboth := (saw_handed hnext).2.append (src.saw_release p o₂)
    exact hturns.sawLast ⟨_, _, hboth, .overrun _ _ hlarge⟩

end Source

end BlockAccess
