import BlockAccess.Proofs.Source.Conforming
import BlockAccess.Proofs.Stream.Within

/-!
# A stream is a cursor

What a client of a block wants to know is a place in it and whether the end was met: a `Cursor`.
`Cursor.Does` says what each call in sequence answers and where the cursor is then.  Readers and
packets do not occur in it; all that is left of them is that a read may give less than was asked
for.

Over a source that delivers the block a stream does what the cursor does.  `Ready` is the invariant
behind this: what is left of the current packet, followed by what the reader owes, is the block from
the position on, up to the declared end.  `Ready.step` keeps it call by call, and `cursor_history`
is the statement for runs.
-/

namespace BlockAccess

/-- A place in a block, and whether the end was met. -/
structure Cursor where
  position : Nat := 0
  ended : Bool := false
  deriving DecidableEq, Repr

namespace Cursor

variable (block : Bytes) (length : Nat)

/-- Where the bytes end when so many are declared. -/
def finish : Nat := min length block.length

/-- What is left in front of the declared end; nothing once the end was met. -/
def remaining (c : Cursor) : Nat := if c.ended then 0 else length - c.position

/-- The cursor at another place: going back lifts the end. -/
def moved (c : Cursor) (target : Nat) : Cursor where
  position := target
  ended := c.ended && c.position ≤ target

/-- What reading up to `n` bytes gives, and the cursor afterwards. -/
inductive Reads (c : Cursor) (n : Nat) : Option Bytes → Cursor → Prop
  | nothing (hn : n = 0) : Reads c n (some []) c
  | ended (hn : 0 < n) (hend : finish block length ≤ c.position) :
    Reads c n none { c with ended := true }
  | bytes (k : Nat) (hpos : 1 ≤ k) (hn : k ≤ n) (hfinish : c.position + k ≤ finish block length) :
    Reads c n (some ((block.drop c.position).take k)) { c with position := c.position + k }

/-- How a call ends, and the cursor afterwards. -/
inductive Does (c : Cursor) : Stream.Op → Stream.Outcome → Cursor → Prop
  | byte (b : UInt8) (hlt : c.position < finish block length) (hb : block[c.position]? = some b) :
    Does c .readByte { result := .ok (.byte (some b)) } { c with position := c.position + 1 }
  | byteEnded (hend : finish block length ≤ c.position) :
    Does c .readByte { result := .ok (.byte none) } { c with ended := true }
  | read {d : Destination} {offset count : UInt64} {b : Option Bytes} {c' : Cursor}
    (hd : d.admits offset count = true) (h : Reads block length c count.toNat b c') :
    Does c (.read (some d) offset count)
      { result := .ok (.count (b.map List.length)), memory := some (b.elim d (d.put offset.toNat)) }
      c'
  /-- There is no memory, or the window is not within it. -/
  | readRefused {memory : Option Destination} {offset count : UInt64} (m : Misuse)
    (hd : ∀ d, memory = some d → d.admits offset count = false) :
    Does c (.read memory offset count) { result := .error (.misuse m), memory } c
  | remaining (k : Int64) (hk : k.toInt = c.remaining length) :
    Does c .remaining { result := .ok (.amount k) } c
  | position (p : UInt64) (hp : p.toNat = c.position) :
    Does c .position { result := .ok (.position p) } c
  | seek {target : Int64} (hstart : 0 ≤ target.toInt) (hend : target.toInt ≤ length) :
    Does c (.seek target) { result := .ok .done } (c.moved target.toInt.toNat)
  | seekRefused {target : Int64} (m : Misuse) (h : target.toInt < 0 ∨ length < target.toInt) :
    Does c (.seek target) { result := .error (.misuse m) } c
  | skip {n : Int64} (k : Int64) (hk : k.toInt = min (c.remaining length : Int) (max n.toInt 0)) :
    Does c (.skip n) { result := .ok (.amount k) }
      { c with position := c.position + k.toInt.toNat }

/-- How the calls of a run end, and the cursor afterwards. -/
inductive Run : Cursor → List (Stream.Op × Stream.Outcome) → Cursor → Prop
  | nil (c : Cursor) : Run c [] c
  | cons {c c' c'' : Cursor} {op : Stream.Op} {o : Stream.Outcome}
    {t : List (Stream.Op × Stream.Outcome)} (h : Does block length c op o c') (ht : Run c' t c'') :
    Run c ((op, o) :: t) c''

end Cursor

namespace Source.Conforming

variable {W R : Type} [Journaled W] {src : Source W R} {S : Bytes}

theorem fair_releasePacket (c : src.Conforming S) (s : Stream R) {w : W} (hw : c.Fair w) :
    c.Fair (s.releasePacket src w).2 := by
  unfold Stream.releasePacket
  split
  · exact hw
  · exact c.fair_release _ hw

theorem owes_releasePacket (c : src.Conforming S) (s : Stream R) {w : W} {r : R} {b : Bytes}
    {e : Nat} (h : c.Owes r w b e) : c.Owes r (s.releasePacket src w).2 b e := by
  unfold Stream.releasePacket
  split
  · exact h
  · exact c.owes_release _ h

/-- Giving up a reader that conforms does not fail. -/
theorem dropReader (c : src.Conforming S) {s : Stream R} {w : W} (hw : c.Fair w)
    (ho : ∀ r, s.reader = some r → ∃ b e, c.Owes r w b e) :
    ∃ w', s.dropReader src w = (.ok (), { s with reader := none, packet := none }, w') ∧
      c.Fair w' := by
  have hs := Stream.releasePacket_fst src s w
  have hfair := c.fair_releasePacket s hw
  have howes (r : R) (hr : s.reader = some r) : ∃ b e, c.Owes r (s.releasePacket src w).2 b e := by
    obtain ⟨b, e, h⟩ := ho r hr
    exact ⟨b, e, c.owes_releasePacket s h⟩
  unfold Stream.dropReader
  split
  next s₁ w₁ h₁ =>
  rw [h₁] at hs hfair howes
  dsimp only at hs hfair howes
  subst hs
  split
  · next hr =>
    dsimp only at hr
    rw [hr]
    exact ⟨w₁, rfl, hfair⟩
  · next r hr =>
    obtain ⟨b, e, h⟩ := howes r hr
    obtain ⟨r', w', hc, hfair'⟩ := c.close hfair h
    rw [hc]
    exact ⟨w', rfl, hfair'⟩

end Source.Conforming

namespace Stream

open Offset

variable {W R : Type} {S : Bytes} {length : UInt64} {s : Stream R}

/-- The cursor that a stream is. -/
def cursorOf (s : Stream R) : Cursor where
  position := s.position.toNat
  ended := s.ended

/-- The bytes of the current packet that are not taken. -/
def unread (s : Stream R) : Bytes := (s.packet.map Packet.unread).getD []

/-! ## The bytes in front of a stream -/

theorem Within.range_eq (hs : s.Within length) : range S s.position s.rest =
    (S.drop s.position.toNat).take (length.toNat - s.position.toNat) := by
  rw [range, hs.toNat_rest]

theorem Within.length_range (hs : s.Within length) : (range S s.position s.rest).length =
    Cursor.finish S length.toNat - s.position.toNat := by
  rw [hs.range_eq, List.length_take, List.length_drop, Cursor.finish]
  omega

theorem Within.range_eq_nil (hs : s.Within length) : range S s.position s.rest = [] ↔
    Cursor.finish S length.toNat ≤ s.position.toNat := by
  rw [← List.length_eq_zero_iff, hs.length_range]
  omega

/-- The front of what is in front, and what follows it. -/
theorem take_append_min (u b : Bytes) (n : Nat) :
    u.take n = (u ++ b).take (min n u.length) ∧
      u.drop n ++ b = (u ++ b).drop (min n u.length) := by
  have hle : min n u.length ≤ u.length := Nat.min_le_right ..
  rw [List.take_append_of_le_length hle, List.drop_append_of_le_length hle]
  rcases Nat.le_total n u.length with h | h
  · rw [Nat.min_eq_left h]
    exact ⟨rfl, rfl⟩
  · rw [Nat.min_eq_right h, List.take_of_length_le h, List.take_length, List.drop_of_length_le h,
      List.drop_length]
    exact ⟨rfl, rfl⟩

/-- A stream that went on by `k` of the bytes in front of it. -/
theorem Within.range_advance {s' : Stream R} {k : Nat} (hs : s.Within length)
    (hs' : s'.Within length) (hk : s'.position.toNat = s.position.toNat + k) :
    range S s'.position s'.rest = (range S s.position s.rest).drop k := by
  rw [hs.range_eq, hs'.range_eq, hk, List.drop_take, List.drop_drop]
  congr 1
  omega

/-- What is taken of a packet that has the front of what is in front of a stream: some of the bytes
that follow the position, with the rest still in front. -/
theorem Within.portion (hs : s.Within length) {p : Packet} {b : Bytes} (hne : p.unread ≠ [])
    (hb : p.unread ++ b = range S s.position s.rest) {n : UInt64} (hn : 0 < n.toNat) :
    ∃ k, 1 ≤ k ∧ k ≤ n.toNat ∧ s.position.toNat + k ≤ Cursor.finish S length.toNat ∧
      (s.position + p.portion n).toNat = s.position.toNat + k ∧
      p.unread.take n.toNat = (S.drop s.position.toNat).take k ∧
      p.unread.drop n.toNat ++ b = (range S s.position s.rest).drop k := by
  obtain ⟨htake, hdrop⟩ := take_append_min p.unread b n.toNat
  rw [hb] at htake hdrop
  generalize hk : min n.toNat p.unread.length = k at htake hdrop
  have hpos : 0 < p.unread.length := List.length_pos_iff.2 hne
  have hle : p.unread.length ≤ Cursor.finish S length.toNat - s.position.toNat := by
    rw [← hs.length_range, ← hb, List.length_append]
    exact Nat.le_add_right ..
  have hdeclared : Cursor.finish S length.toNat ≤ length.toNat := Nat.min_le_left ..
  have hlimit := length.toNat_lt
  have hportion : (p.portion n).toNat = k := by rw [Packet.toNat_portion, ← hk, Packet.readable]
  refine ⟨k, by omega, by omega, by omega, ?_, ?_, hdrop⟩
  · rw [toNat_add (by rw [hportion]; simp only [UInt64.size]; omega), hportion]
  · rw [htake, hs.range_eq, List.take_take, Nat.min_eq_left (by omega)]

/-! ## The invariant -/

variable [Journaled W] {src : Source W R} {c : src.Conforming S} {w : W}

/-- An open stream over a source that delivers the block.  What is left of the current packet,
followed by what the reader owes, is what is in front of the stream. -/
structure Attached (c : src.Conforming S) (length : UInt64) (p : Stream R × W) : Prop
    extends p.1.Within length where
  isOpen : p.1.closed = false
  fair : c.Fair p.2
  owes : ∀ r, p.1.reader = some r →
    ∃ b, c.Owes r p.2 b 0 ∧ p.1.unread ++ b = range S p.1.position p.1.rest

/-- Such a stream, that met the end only if there is nothing in front of it. -/
structure Ready (c : src.Conforming S) (length : UInt64) (p : Stream R × W) : Prop
    extends Attached c length p where
  finish_le : p.1.ended = true → Cursor.finish S length.toNat ≤ p.1.position.toNat

theorem Attached.withReader (h : Attached c length (s, w)) : ∃ r w' b,
    s.withReader src w = (.ok r, { s with reader := some r }, w') ∧ c.Fair w' ∧
      c.Owes r w' b 0 ∧ s.unread ++ b = range S s.position s.rest := by
  unfold Stream.withReader
  split
  · next r hr =>
    obtain ⟨b, ho, hb⟩ := h.owes r hr
    exact ⟨r, w, b, by rw [← hr], h.fair, ho, hb⟩
  · next hr =>
    obtain ⟨r, w', hc, hw', ho⟩ := c.create s.position s.rest
      (c.fair_note (.creatingReader s.block s.position s.rest) h.fair)
    have hnone : s.unread = [] := by rw [unread, h.tidy hr]; rfl
    rw [hc]
    exact ⟨r, w', _, rfl, hw', ho, by rw [hnone, List.nil_append]⟩

/-- Filling a stream gives a packet with bytes in it, or none if nothing is in front. -/
theorem Attached.fill (h : Attached c length (s, w)) :
    (∃ r w' e, s.fill src w = (.ok (), { s with reader := some r, packet := none }, w') ∧
      c.Fair w' ∧ range S s.position s.rest = [] ∧ c.Owes r w' [] e) ∨
    ∃ r p w' b, s.fill src w = (.ok (), { s with reader := some r, packet := some p }, w') ∧
      c.Fair w' ∧ p.unread ≠ [] ∧ p.unread ++ b = range S s.position s.rest ∧
      c.Owes r w' b 0 := by
  obtain ⟨r, w₁, b, hr, hw₁, ho, hb⟩ := h.withReader
  unfold Stream.fill
  rw [hr]
  dsimp only
  by_cases hany : s.packet.any (!·.unread.isEmpty) = true
  · rw [if_pos hany]
    obtain ⟨p, hp⟩ : ∃ p, s.packet = some p := by
      cases hp : s.packet with
      | none => simp [hp] at hany
      | some p => exact ⟨p, rfl⟩
    rw [hp] at hany
    refine .inr ⟨r, p, w₁, b, by rw [← hp], hw₁, by simpa using hany, ?_, ho⟩
    rw [← hb, unread, hp]
    rfl
  · rw [if_neg hany]
    have hempty : s.unread = [] := by
      unfold unread
      cases hp : s.packet with
      | none => rfl
      | some p => simpa [hp] using hany
    rw [hempty, List.nil_append] at hb
    have hs := releasePacket_fst src { s with reader := some r } w₁
    have hfair := c.fair_releasePacket { s with reader := some r } hw₁
    have howes := c.owes_releasePacket { s with reader := some r } ho
    rcases hrel : releasePacket src { s with reader := some r } w₁ with ⟨s₂, w₂⟩
    rw [hrel] at hs hfair howes
    dsimp only at hs hfair howes
    subst hs
    dsimp only
    have hlimit : 0 < emptyPacketLimit := by decide
    rcases c.pull s.block hlimit (Nat.le_refl _) hfair howes with
      ⟨r', w', hpull, hw', hnil, e, ho'⟩ | ⟨p, r', w', b', hpull, hw', hb', hne, ho'⟩
    · rw [hpull]
      exact .inl ⟨r', w', e, rfl, hw', hb ▸ hnil, ho'⟩
    · rw [hpull]
      exact .inr ⟨r', p, w', b', rfl, hw', hne, by rw [← hb', hb], ho'⟩

/-- **A read gives what the cursor reads.** -/
theorem Ready.fetch (h : Ready c length (s, w)) {n : UInt64} (hn : 0 < n.toNat) : ∃ b s' w',
    s.fetch src n w = (.ok b, s', w') ∧
      Cursor.Reads S length.toNat (cursorOf s) n.toNat b (cursorOf s') ∧
      Ready c length (s', w') := by
  have hwithin : s.Within length := h.toWithin
  unfold Stream.fetch
  rcases h.fill with ⟨r, w₁, e, hf, hw₁, hnil, ho⟩ | ⟨r, p, w₁, b, hf, hw₁, hne, hb, ho⟩
  · -- nothing is in front, so the end is met
    have hend := hwithin.range_eq_nil.1 hnil
    have howed (q : R) (hq : some r = some q) : ∃ b e, c.Owes q w₁ b e := by
      obtain rfl := Option.some.inj hq
      exact ⟨[], e, ho⟩
    obtain ⟨w', hd, hw'⟩ :=
      c.dropReader (s := { s with reader := some r, packet := none, ended := true }) hw₁ howed
    rw [hf]
    dsimp only
    rw [ite_self]
    dsimp only
    rw [hd]
    refine ⟨none, _, w', rfl, .ended hn hend, ?_⟩
    exact ⟨⟨⟨fun _ => rfl, hwithin.length_eq, hwithin.position_le⟩, h.isOpen, hw',
      fun q hq => by simp at hq⟩, fun _ => hend⟩
  · -- the packet has the front of what is in front
    have hlt : s.position.toNat < Cursor.finish S length.toNat := by
      refine Nat.lt_of_not_le fun hle => hne ?_
      rw [hwithin.range_eq_nil.2 hle] at hb
      exact (List.append_eq_nil_iff.1 hb).1
    have hended : s.ended = false := by
      by_cases hended : s.ended = true
      · exact absurd (h.finish_le hended) (Nat.not_le.2 hlt)
      · simpa using hended
    rw [hf]
    simp only [hended, Bool.false_eq_true, if_false, Packet.take_portion]
    obtain ⟨k, hpos, hkn, hfinish, hmoved, hbytes, hdrop⟩ := hwithin.portion hne hb hn
    have hdeclared : Cursor.finish S length.toNat ≤ length.toNat := Nat.min_le_left ..
    refine ⟨_, _, _, rfl, ?_, ?_⟩
    · have hreads := Cursor.Reads.bytes (c := cursorOf s) k hpos hkn hfinish
      rw [hbytes]
      simpa [cursorOf, hmoved, hended] using hreads
    · have hwithin' : Within length
          { s with reader := some r, packet := some { p with unread := p.unread.drop n.toNat },
                   position := s.position + p.portion n, ended := false } :=
        ⟨fun hr => by simp at hr, hwithin.length_eq, by rw [hmoved]; omega⟩
      refine ⟨⟨hwithin', h.isOpen, hw₁, fun q hq => ?_⟩, fun he => by simp at he⟩
      obtain rfl := Option.some.inj hq
      exact ⟨b, ho, by rw [hwithin.range_advance hwithin' hmoved]; exact hdrop⟩

/-- Giving up the reader does not fail, whatever else of the stream is changed. -/
theorem Attached.dropReader (h : Attached c length (s, w)) {s' : Stream R}
    (hreader : s'.reader = s.reader) :
    ∃ w', s'.dropReader src w = (.ok (), { s' with reader := none, packet := none }, w') ∧
      c.Fair w' := by
  refine c.dropReader h.fair fun r hr => ?_
  obtain ⟨b, ho, -⟩ := h.owes r (hreader ▸ hr)
  exact ⟨b, 0, ho⟩

/-! ## Calls -/

theorem Ready.readSome (h : Ready c length (s, w)) (n : UInt64) : ∃ b s' w',
    s.readSome src n w = (.ok b, s', w') ∧
      Cursor.Reads S length.toNat (cursorOf s) n.toNat b (cursorOf s') ∧
      Ready c length (s', w') := by
  have hopen : s.closed = false := h.isOpen
  unfold Stream.readSome
  simp only [hopen, Bool.false_eq_true, if_false]
  split
  · next hn =>
    subst hn
    exact ⟨some [], s, w, rfl, .nothing rfl, h⟩
  · next hn => exact h.fetch (Nat.pos_of_ne_zero fun h0 => hn (UInt64.toNat_inj.1 h0))

theorem Ready.step_readByte {p : Stream R × W} (h : Ready c length p) :
    Cursor.Does S length.toNat (cursorOf p.1) .readByte (step src .readByte p).outcome
        (cursorOf (step src .readByte p).after.1) ∧
      Ready c length (step src .readByte p).after := by
  obtain ⟨b, s', w', hr, hreads, hready⟩ := h.readSome 1
  rw [Stream.step_readByte hr]
  refine ⟨?_, hready⟩
  dsimp only
  generalize cursorOf s' = k at hreads
  cases hreads with
  | nothing hn => exact absurd hn (by decide)
  | ended hn hend => exact .byteEnded hend
  | bytes k hpos hn hfinish =>
    obtain rfl : k = 1 := Nat.le_antisymm hn hpos
    have hlt : (cursorOf p.1).position < Cursor.finish S length.toNat := hfinish
    have hblock : Cursor.finish S length.toNat ≤ S.length := Nat.min_le_right ..
    obtain ⟨a, ha⟩ : ∃ a, S[(cursorOf p.1).position]? = some a :=
      ⟨_, List.getElem?_eq_getElem (Nat.lt_of_lt_of_le hlt hblock)⟩
    have hhead : ((S.drop (cursorOf p.1).position).take 1).head? = some a := by
      rw [List.head?_take, if_neg (by decide), List.head?_drop, ha]
    simp only [Except.map, Op.answer, Option.bind_some, hhead]
    exact .byte a hlt ha

theorem Ready.step_read {memory : Option Destination} {offset count : UInt64} {p : Stream R × W}
    (h : Ready c length p) :
    Cursor.Does S length.toNat (cursorOf p.1) (.read memory offset count)
        (step src (.read memory offset count) p).outcome
        (cursorOf (step src (.read memory offset count) p).after.1) ∧
      Ready c length (step src (.read memory offset count) p).after := by
  have hopen : p.1.closed = false := h.isOpen
  cases memory with
  | none =>
    have hd : p.1.destination? none offset count = .error (.misuse .noDestination) := by
      simp [destination?, hopen]
    rw [step_read_refused hd]
    exact ⟨.readRefused _ fun d hd => by simp at hd, h⟩
  | some d =>
    by_cases hadmits : d.admits offset count = true
    · have hd : p.1.destination? (some d) offset count = .ok d := by
        simp [destination?, hopen, hadmits]
      obtain ⟨b, s', w', hr, hreads, hready⟩ := h.readSome count
      rw [Stream.step_read hd hr]
      refine ⟨?_, hready⟩
      have hdoes := Cursor.Does.read hadmits hreads
      cases b with
      | none => exact hdoes
      | some b => exact hdoes
    · have hd : p.1.destination? (some d) offset count =
          .error (.misuse (.window d.size offset count)) := by
        simp [destination?, hopen, hadmits]
      rw [step_read_refused hd]
      refine ⟨.readRefused _ fun d' hd' => ?_, h⟩
      obtain rfl := Option.some.inj hd'
      simpa using hadmits

theorem Ready.remaining_eq (hL : length.toNat < signedLimit) (h : Ready c length (s, w)) :
    ∃ k, s.remaining = .ok k ∧ k.toInt = (cursorOf s).remaining length.toNat := by
  have hopen : s.closed = false := h.isOpen
  have hwithin : s.Within length := h.toWithin
  have hle := hwithin.position_le
  refine ⟨if s.ended then 0 else s.rest.toInt64, by simp [Stream.remaining, hopen], ?_⟩
  cases hended : s.ended
  · simp only [Cursor.remaining, cursorOf, hended, Bool.false_eq_true, if_false]
    rw [hwithin.toInt_rest hL]
    omega
  · simp only [Cursor.remaining, cursorOf, hended, if_true]
    exact Int64.toInt_zero

theorem Ready.step_seek {target : Int64} {p : Stream R × W} (h : Ready c length p) :
    Cursor.Does S length.toNat (cursorOf p.1) (.seek target) (step src (.seek target) p).outcome
        (cursorOf (step src (.seek target) p).after.1) ∧
      Ready c length (step src (.seek target) p).after := by
  obtain ⟨s, w⟩ := p
  have hopen : s.closed = false := h.isOpen
  have hwithin : s.Within length := h.toWithin
  by_cases hneg : target < 0
  · have hseek : s.seek src target w = (.error (.misuse (.seekBeforeStart target)), s, w) := by
      rw [seek, if_neg (by simp [hopen]), if_pos hneg]
    simp only [step, perform, hseek]
    exact ⟨.seekRefused _ (.inl ((neg_iff _).1 hneg)), h⟩
  have hstart : 0 ≤ target.toInt := by
    rw [neg_iff] at hneg
    omega
  have hnat := toNat_toUInt64 hstart
  by_cases hpast : s.length < target.toUInt64
  · have hseek : s.seek src target w =
        (.error (.misuse (.seekPastEnd target.toUInt64 s.block s.length)), s, w) := by
      rw [seek, if_neg (by simp [hopen]), if_neg hneg, if_pos hpast]
    simp only [step, perform, hseek]
    rw [hwithin.length_eq, toNat_lt_iff hstart] at hpast
    exact ⟨.seekRefused _ (.inr hpast), h⟩
  have hle : target.toUInt64 ≤ s.length := UInt64.not_lt.1 hpast
  have hend : target.toUInt64.toNat ≤ length.toNat := by
    rw [hwithin.length_eq, UInt64.le_iff_toNat_le] at hle
    exact hle
  have hto : target.toInt.toNat = target.toUInt64.toNat := by omega
  have hdoes : Cursor.Does S length.toNat (cursorOf s) (.seek target) { result := .ok .done }
      ((cursorOf s).moved target.toUInt64.toNat) := hto ▸ .seek hstart (by omega)
  by_cases hsame : target.toUInt64 = s.position
  · simp only [step, perform, seek_self hopen hstart hle hsame]
    refine ⟨?_, h⟩
    have hcursor : (cursorOf s).moved target.toUInt64.toNat = cursorOf s := by
      simp [Cursor.moved, cursorOf, hsame]
    rwa [hcursor] at hdoes
  · have hreader : (s.rewound target.toUInt64).reader = s.reader := rfl
    obtain ⟨w', hd, hw'⟩ := h.dropReader hreader
    simp only [step, perform, seek_of_ne hopen hstart hle hsame hd]
    constructor
    · have hcursor : (cursorOf s).moved target.toUInt64.toNat =
          cursorOf (R := R) { s.rewound target.toUInt64 with
            reader := none, packet := none, position := target.toUInt64 } := by
        have hback : decide (s.position ≤ target.toUInt64) =
            decide (s.position.toNat ≤ target.toUInt64.toNat) :=
          decide_eq_decide.2 UInt64.le_iff_toNat_le
        exact congrArg (fun e => Cursor.mk target.toUInt64.toNat (s.ended && e)) hback.symm
      rwa [hcursor] at hdoes
    · refine ⟨⟨⟨fun _ => rfl, hwithin.length_eq, hend⟩, hopen, hw', fun r hr => ?_⟩, fun he => ?_⟩
      · simp at hr
      · simp only [rewound, Bool.and_eq_true, decide_eq_true_eq] at he
        exact Nat.le_trans (h.finish_le he.1) (UInt64.le_iff_toNat_le.1 he.2)

theorem Ready.step_skip (hL : length.toNat < signedLimit) {n : Int64} {p : Stream R × W}
    (h : Ready c length p) :
    Cursor.Does S length.toNat (cursorOf p.1) (.skip n) (step src (.skip n) p).outcome
        (cursorOf (step src (.skip n) p).after.1) ∧
      Ready c length (step src (.skip n) p).after := by
  obtain ⟨s, w⟩ := p
  have hwithin : s.Within length := h.toWithin
  obtain ⟨left, hleft, hvalue⟩ := h.remaining_eq hL
  simp only [step, perform, skip, hleft]
  by_cases hn : n ≤ 0
  · rw [if_pos hn]
    rw [Int64.le_iff_toInt_le, Int64.toInt_zero] at hn
    have hk : (0 : Int64).toInt =
        min ((cursorOf s).remaining length.toNat : Int) (max n.toInt 0) := by
      rw [Int64.toInt_zero]
      omega
    exact ⟨.skip 0 hk, h⟩
  rw [if_neg hn]
  rw [Int64.le_iff_toInt_le, Int64.toInt_zero, Int.not_le] at hn
  obtain ⟨hpos, hle, hsum⟩ := hwithin.passed hL hleft hn
  have hmin := toInt_min left n
  have hnat := toNat_toUInt64 hpos
  have hreader : { s with position := s.position + (min left n).toUInt64 }.reader = s.reader := rfl
  obtain ⟨w', hd, hw'⟩ := h.dropReader hreader
  rw [hd]
  constructor
  · have hk : (min left n).toInt =
        min ((cursorOf s).remaining length.toNat : Int) (max n.toInt 0) := by omega
    have hcursor : cursorOf (R := R) { s with
          position := s.position + (min left n).toUInt64, reader := none, packet := none } =
        { cursorOf s with position := (cursorOf s).position + (min left n).toInt.toNat } := by
      have hto : (min left n).toInt.toNat = (min left n).toUInt64.toNat := by omega
      simp only [cursorOf, hsum, hto]
    dsimp only
    rw [hcursor]
    exact .skip (min left n) hk
  · refine ⟨⟨⟨fun _ => rfl, hwithin.length_eq, by rw [hsum]; exact hle⟩, h.isOpen, hw',
      fun r hr => by simp at hr⟩, fun he => ?_⟩
    rw [hsum]
    exact Nat.le_add_right_of_le (h.finish_le he)

/-- **A call in sequence does what the cursor does.** -/
theorem Ready.step (hL : length.toNat < signedLimit) {op : Op} (hop : op.sequential = true)
    {p : Stream R × W} (h : Ready c length p) :
    Cursor.Does S length.toNat (cursorOf p.1) op (step src op p).outcome
        (cursorOf (step src op p).after.1) ∧
      Ready c length (step src op p).after := by
  cases op with
  | readByte => exact h.step_readByte
  | read memory offset count => exact h.step_read
  | remaining =>
    obtain ⟨k, hk, hvalue⟩ := h.remaining_eq hL
    simp only [Stream.step, perform, hk]
    exact ⟨.remaining k hvalue, h⟩
  | position => exact ⟨.position _ rfl, h⟩
  | seek target => exact h.step_seek
  | skip n => exact h.step_skip hL
  | readAt target memory offset count => simp [Op.sequential] at hop
  | close => simp [Op.sequential] at hop

/-- What a client saw of a run: the calls and how they ended. -/
def transcript (t : List (Step W R)) : List (Op × Outcome) := t.map fun st => (st.op, st.outcome)

theorem Ready.run (hL : length.toNat < signedLimit) {ops : List Op}
    (hops : ∀ op ∈ ops, op.sequential = true) {p : Stream R × W} (h : Ready c length p) :
    Cursor.Run S length.toNat (cursorOf p.1) (transcript (history src ops p))
        (cursorOf (run src ops p).1) ∧
      Ready c length (run src ops p) := by
  induction ops generalizing p with
  | nil => exact ⟨.nil _, h⟩
  | cons op ops ih =>
    rw [List.forall_mem_cons] at hops
    obtain ⟨hdoes, hafter⟩ := h.step hL hops.1
    obtain ⟨hrun, hend⟩ := ih hops.2 hafter
    exact ⟨.cons hdoes hrun, hend⟩

theorem ready_start (c : src.Conforming S) {block : UInt64} (hw : c.Fair w) :
    Ready c length (start block length, w) where
  toWithin := within_start
  isOpen := rfl
  finish_le he := by simp [start] at he
  fair := hw
  owes r hr := by simp [start] at hr

/-- **A stream is a cursor.**  Over a source that delivers a block, in whatever packets, and for any
declared length below 2^63, calls in sequence on a stream that was just opened end as they do for a
cursor at the start of the block, and leave the stream where the cursor is. -/
theorem cursor_history (hL : length.toNat < signedLimit) (c : src.Conforming S) (hw : c.Fair w)
    (block : UInt64) {ops : List Op} (hops : ∀ op ∈ ops, op.sequential = true) :
    Cursor.Run S length.toNat {} (transcript (history src ops (start block length, w)))
      (cursorOf (run src ops (start block length, w)).1) :=
  ((ready_start c hw).run hL hops).1

/-- A block of five bytes that comes in pairs, after an empty packet. -/
def pairs : SourceScript where
  block := [1, 2, 3, 4, 5]
  readers := [{ sizes := [0, 2] }]

theorem steady_pairs (n : Nat) :
    n ∉ pairs.failingCreates ∧ ((forCall? pairs.readers n).getD {}).Steady := by
  have hscript : (forCall? pairs.readers n).getD {} = { sizes := [0, 2] } := by
    simp [forCall?, pairs]
  rw [hscript]
  refine ⟨List.not_mem_nil, rfl, rfl, rfl, rfl, fun i => ⟨1, by decide, ?_⟩⟩
  simp [ReaderScript.sizeAt, forCall?]

/-- Reads, moves and the end of a block that is shorter than declared. -/
def tour : List Op :=
  [.readByte, .read (some ⟨4, [0, 0, 0, 0]⟩) 0 4, .remaining, .seek 4, .readByte, .readByte,
    .seek 6, .readByte, .remaining, .seek 1, .skip 2, .position, .readByte]

theorem cursor_history_pairs :
    (7 : UInt64).toNat < signedLimit ∧ (∀ op ∈ tour, op.sequential = true) ∧
      Cursor.Run [1, 2, 3, 4, 5] 7 {}
        (transcript (history (pairs.source (W := Site)) tour (start 1 7, {})))
        (cursorOf (run (pairs.source (W := Site)) tour (start 1 7, {})).1) := by
  have hL : (7 : UInt64).toNat < signedLimit := by decide
  have htour : ∀ op ∈ tour, op.sequential = true := by decide
  exact ⟨hL, htour,
    cursor_history hL (pairs.conforming 0 fun n _ => steady_pairs n) (Nat.zero_le _) 1 htour⟩

end Stream

end BlockAccess
